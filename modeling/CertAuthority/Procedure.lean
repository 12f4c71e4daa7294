import CertAuthority.Store.Table

/-!
# Procedures

What the authority does is a sequence of effects: calls to tables, readings of the clock, draws
of random bytes, and taking and releasing the lock of a request.  A procedure is the tree of all
its courses: each effect with what follows upon each reply.  Whoever runs it decides the replies,
so that other procedures may act between any two effects.
-/

namespace CertAuthority

inductive Effect where
  | now
  | random (count : Nat)
  | table (name : TableName) (call : TableCall name.Row)
  | lock (id : RequestId)
  | unlock (id : RequestId)

/-- What is replied to an effect. -/
@[reducible] def Effect.Reply : Effect → Type
  | .now => Instant
  | .random _ => Bytes
  | .table _ call => call.Reply
  | .lock _ => Unit
  | .unlock _ => Unit

/-- Why a procedure ends without a value. -/
inductive Failure where
  | error (e : CaError)
  /-- A time left the calendar. -/
  | calendar
  /-- The rounds that were granted are used up. -/
  | unfinished
  deriving Repr, DecidableEq

inductive Procedure (α : Type) where
  | done (a : α)
  | fail (f : Failure)
  | call (e : Effect) (next : e.Reply → Procedure α)

namespace Procedure

variable {α β : Type}

def bind : Procedure α → (α → Procedure β) → Procedure β
  | .done a, f => f a
  | .fail e, _ => .fail e
  | .call e next, f => .call e fun reply => bind (next reply) f

instance : Monad Procedure where
  pure := .done
  bind := bind

def error (e : CaError) : Procedure α :=
  .fail (.error e)

/-- A result that is at hand. -/
def ofExcept : Except CaError α → Procedure α
  | .ok a => .done a
  | .error e => error e

def now : Procedure Instant :=
  .call .now .done

def random (count : Nat) : Procedure Bytes :=
  .call (.random count) .done

/-- A call to a table, whose error is a result like any other. -/
def ask (name : TableName) (call : TableCall name.Row) : Procedure call.Reply :=
  .call (.table name call) .done

/-- What a call to a table gives; its error ends the procedure. -/
def query (name : TableName) (call : TableCall name.Row) : Procedure call.Payload :=
  .call (.table name call) ofExcept

/-- Does something at the end, whether the procedure fails or not. -/
def ensuring : Procedure α → Effect → Procedure α
  | .done a, e => .call e fun _ => .done a
  | .fail f, e => .call e fun _ => .fail f
  | .call e next, last => .call e fun reply => ensuring (next reply) last

/-- A procedure under the lock of a request. -/
def locked (id : RequestId) (body : Procedure α) : Procedure α :=
  .call (.lock id) fun _ => body.ensuring (.unlock id)

/-- Runs a procedure with nothing in between. -/
def run {σ : Type} (reply : (e : Effect) → σ → e.Reply × σ) : Procedure α → σ → Except Failure α × σ
  | .done a, s => (.ok a, s)
  | .fail f, s => (.error f, s)
  | .call e next, s => run reply (next (reply e s).1) (reply e s).2

theorem bind_call (e : Effect) (next : e.Reply → Procedure α) (f : α → Procedure β) :
    (Procedure.call e next).bind f = .call e fun reply => (next reply).bind f := rfl

end Procedure

end CertAuthority
