/-!
# Orderly shutdown

One mark says that the program is to stop.  Tasks watch the mark through children of it, each of
which can also be marked alone.  When the program stops, it waits for its tasks for a while and
ends those that are left.
-/

namespace CertAuthority

structure Shutdown where
  isRequested : Bool
  /-- The children in the order in which they were made, and whether each was marked alone. -/
  children : List Bool
  deriving Repr, DecidableEq

/-- What makes a waiting program stop. -/
inductive StopEvent where
  | request
  | interrupt
  | terminate
  deriving Repr, DecidableEq

namespace Shutdown

def initial : Shutdown := ⟨false, []⟩

/-- Makes a child, whose number is that of the children before it. -/
def addChild (s : Shutdown) : Nat × Shutdown :=
  (s.children.length, { s with children := s.children ++ [false] })

/-- Whether each child is to stop: a mark holds for all of them. -/
def childStates (s : Shutdown) : List Bool :=
  s.children.map (s.isRequested || ·)

/-- Marks one child alone; nothing if there is no such child. -/
def cancelChild? (s : Shutdown) (n : Nat) : Option Shutdown :=
  if n < s.children.length then some { s with children := s.children.set n true } else none

def request (s : Shutdown) : Shutdown :=
  { s with isRequested := true }

/-- Whether a program that waits goes on at once. -/
def isOver (s : Shutdown) : Bool :=
  s.isRequested

/-- What is so after the events of a time in which the program waited. -/
def wait (s : Shutdown) (events : List StopEvent) : Shutdown :=
  if events.isEmpty then s else s.request

end Shutdown

/-- What a task does. -/
inductive BackgroundTask where
  /-- It ends at once. -/
  | brief
  /-- It ends when its child of the mark does. -/
  | watching
  /-- It breaks off. -/
  | failing
  | endless
  deriving Repr, DecidableEq

/-- How a task is over once it has been waited for. -/
inductive TaskEnd where
  | completed
  | failed
  /-- It was ended when the time was over. -/
  | aborted
  deriving Repr, DecidableEq

def BackgroundTask.ending (s : Shutdown) : BackgroundTask → TaskEnd
  | .brief => .completed
  | .watching => if s.isRequested then .completed else .aborted
  | .failing => .failed
  | .endless => .aborted

end CertAuthority
