import Xps.Text.Split

/-!
# Arguments

Flags, options and free arguments are taken from a list of arguments. A flag or an option is found
anywhere and removed, so the free arguments are those that are left in the end, whatever they look
like.
-/

namespace Xps.Cli

/-- Why an argument cannot be taken. -/
inductive ArgumentFault
  | valueMissing (key : String)
  | invalidValue (value cause : String)
  | freeMissing

def ArgumentFault.message : ArgumentFault → String
  | valueMissing key => s!"the '{key}' option doesn't have an associated value"
  | invalidValue value cause => s!"failed to parse '{value}': {cause}"
  | freeMissing => "free-standing argument is missing"

/-- Takes arguments from those that are left. -/
abbrev Taking := StateT (List String) (Except ArgumentFault)

/-! ## Flags and free arguments -/

/-- Takes a flag with some keys, if it is there. -/
def takeFlag (keys : List String) : Taking Bool := do
  let args ← get
  match keys.find? args.contains with
  | some key =>
    set (args.erase key)
    return true
  | none => return false

def takeFree? : Taking (Option String) := do
  match ← get with
  | [] => return none
  | arg :: args =>
    set args
    return some arg

def takeFree : Taking String := do
  match ← takeFree? with
  | some arg => return arg
  | none => throw .freeMissing

/-! ## Options -/

/-- The text of a value without the equal quotes around it. An empty value is none. -/
def unquote? : List Char → Option (List Char)
  | [] => none
  | c :: s =>
    if c = '"' ∨ c = '\'' then
      if s.getLast? = some c ∧ 1 < s.length then some s.dropLast else none
    else some (c :: s)

/-- The value after the first argument that is a key, and the arguments without both. -/
def followingValue (key : String) (args : List String) :
    Except ArgumentFault (String × List String) :=
  match args.dropWhile (· != key) with
  | _ :: value :: rest => .ok (value, args.takeWhile (· != key) ++ rest)
  | _ => .error (.valueMissing key)

/-- What an argument gives to a key with an equals sign. -/
def attached? (key arg : String) : Option (List Char) :=
  let mark := key.toList ++ ['=']
  if mark.isPrefixOf arg.toList then some (arg.toList.drop mark.length) else none

/-- The value in the first argument that gives one to a key, and the arguments without it. -/
def attachedValue (key : String) (args : List String) :
    Except ArgumentFault (String × List String) :=
  match (args.findSome? (attached? key)).bind unquote? with
  | some value => .ok (String.ofList value, args.eraseP fun arg => (attached? key arg).isSome)
  | none => .error (.valueMissing key)

/-- The value of an option with some keys. An argument that is a key counts before one with an
equals sign, and an earlier key before a later one. -/
def findValue? (keys args : List String) : Except ArgumentFault (Option (String × List String)) :=
  match keys.find? args.contains with
  | some key => (followingValue key args).map some
  | none =>
    match keys.find? fun key => args.any fun arg => (attached? key arg).isSome with
    | some key => (attachedValue key args).map some
    | none => .ok none

/-- Takes an option, if it is there. -/
def takeOption {α : Type} (keys : List String) (read : String → Except String α) :
    Taking (Option α) := do
  match ← findValue? keys (← get) with
  | none => return none
  | some (value, rest) =>
    match read value with
    | .ok a =>
      set rest
      return some a
    | .error cause => throw (.invalidValue value cause)

end Xps.Cli
