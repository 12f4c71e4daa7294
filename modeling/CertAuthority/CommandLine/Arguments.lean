/-!
# Arguments of a command

An argument is an option, long or short, with a value or without, or it is an operand.  A value
follows its option as an argument of its own, after an equals sign, or directly behind a short
option.  An argument that looks like an option is never a value.  Behind two hyphens all are
operands.
-/

namespace CertAuthority.CommandLine

/-- Why a command line is not run. -/
inductive Refusal where
  /-- It asks for help or for the version. -/
  | help
  | misuse
  deriving Repr, DecidableEq

/-- What an option takes. -/
inductive Taking where
  /-- Nothing; it asks for help and ends the reading. -/
  | help
  | nothing
  /-- A value that fulfils a condition. -/
  | value (accepts : String → Bool)
  /-- A value, as often as it is given. -/
  | values (accepts : String → Bool)

structure OptionSpec where
  name : String
  short : Option Char
  taking : Taking

/-- The options that were given, in their order, and the operands. -/
structure Arguments where
  options : List (String × String)
  operands : List String
  deriving Repr, DecidableEq

namespace Arguments

def empty : Arguments := ⟨[], []⟩

def value? (a : Arguments) (name : String) : Option String :=
  (a.options.find? (·.1 = name)).map (·.2)

def has (a : Arguments) (name : String) : Bool :=
  (a.value? name).isSome

def values (a : Arguments) (name : String) : List String :=
  (a.options.filter (·.1 = name)).map (·.2)

/-- Adds an option, unless it may not be given again or its value is refused. -/
def add (a : Arguments) (spec : OptionSpec) (value : String) : Except Refusal Arguments :=
  let added : Arguments := { a with options := a.options ++ [(spec.name, value)] }
  match spec.taking with
  | .help => .error .help
  | .nothing => if a.has spec.name then .error .misuse else .ok added
  | .value accepts =>
    if accepts value ∧ !a.has spec.name then .ok added else .error .misuse
  | .values accepts => if accepts value then .ok added else .error .misuse

def addOperand (a : Arguments) (operand : String) : Arguments :=
  { a with operands := a.operands ++ [operand] }

end Arguments

/-- What an argument looks like. -/
inductive Shape where
  /-- Two hyphens alone. -/
  | separator
  /-- The name behind two hyphens, and what follows an equals sign. -/
  | long (name : String) (value : Option String)
  /-- The letters behind one hyphen. -/
  | short (letters : List Char)
  | operand

def shape (argument : String) : Shape :=
  match argument.toList with
  | ['-', '-'] => .separator
  | '-' :: '-' :: rest =>
    match rest.span (· ≠ '=') with
    | (name, '=' :: value) => .long (String.ofList name) (some (String.ofList value))
    | (name, _) => .long (String.ofList name) none
  | ['-'] => .operand
  | '-' :: letters => .short letters
  | _ => .operand

def isOperand (argument : String) : Bool :=
  match shape argument with
  | .operand => true
  | _ => false

/-- How an option ends an argument: it is complete, or its value is to follow. -/
inductive Pending where
  | complete (a : Arguments)
  | awaiting (a : Arguments) (spec : OptionSpec)

/-- A long option. -/
def readLong (specs : List OptionSpec) (a : Arguments) (name : String) (value : Option String) :
    Except Refusal Pending :=
  match specs.find? (·.name = name) with
  | none => .error .misuse
  | some spec =>
    match spec.taking, value with
    | .help, some _ | .nothing, some _ => .error .misuse
    | .help, none | .nothing, none => (a.add spec "").map .complete
    | .value _, some value | .values _, some value => (a.add spec value).map .complete
    | .value _, none | .values _, none => .ok (.awaiting a spec)

/-- The letters of short options; one that takes a value takes the rest. -/
def readShort (specs : List OptionSpec) (a : Arguments) : List Char → Except Refusal Pending
  | [] => .ok (.complete a)
  | letter :: rest =>
    match specs.find? (·.short = some letter) with
    | none => .error .misuse
    | some spec =>
      match spec.taking with
      | .help | .nothing =>
        match a.add spec "" with
        | .error e => .error e
        | .ok a => readShort specs a rest
      | .value _ | .values _ =>
        match rest with
        | [] => .ok (.awaiting a spec)
        | '=' :: value => (a.add spec (String.ofList value)).map .complete
        | value => (a.add spec (String.ofList value)).map .complete

/-- Reads one argument; nothing if it is an operand or two hyphens. -/
def readOption? (specs : List OptionSpec) (a : Arguments) (argument : String) :
    Option (Except Refusal Pending) :=
  match shape argument with
  | .long name value => some (readLong specs a name value)
  | .short letters => some (readShort specs a letters)
  | .separator | .operand => none

/-- Reads options up to the first operand, which is given back with what follows it. -/
def readOptions (specs : List OptionSpec) (a : Arguments) :
    List String → Except Refusal (Arguments × List String)
  | [] => .ok (a, [])
  | argument :: rest =>
    match readOption? specs a argument with
    | none => .ok (a, argument :: rest)
    | some (.error e) => .error e
    | some (.ok (.complete a)) => readOptions specs a rest
    | some (.ok (.awaiting a spec)) =>
      match rest with
      | [] => .error .misuse
      | value :: rest =>
        if isOperand value then
          match a.add spec value with
          | .error e => .error e
          | .ok a => readOptions specs a rest
        else .error .misuse

/-- Reads all arguments, of which at most so many are operands. -/
def readAll (specs : List OptionSpec) (operands : Nat) : Nat → Arguments → List String →
    Except Refusal Arguments
  | 0, _, _ => .error .misuse
  | fuel + 1, a, arguments =>
    match readOptions specs a arguments with
    | .error e => .error e
    | .ok (a, []) => .ok a
    | .ok (a, argument :: rest) =>
      match shape argument with
      | .separator =>
        let all := a.operands ++ rest
        if all.length ≤ operands then .ok { a with operands := all } else .error .misuse
      | _ =>
        if a.operands.length < operands then
          readAll specs operands fuel (a.addOperand argument) rest
        else .error .misuse

/-- The arguments of a command. -/
def readArguments (specs : List OptionSpec) (operands : Nat) (arguments : List String) :
    Except Refusal Arguments :=
  readAll specs operands (arguments.length + 1) .empty arguments

end CertAuthority.CommandLine
