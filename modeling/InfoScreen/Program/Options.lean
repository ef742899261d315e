/-!
# Options

A command takes options and operands in any order.  An option has a long name behind two hyphens
and perhaps a letter behind one; letters may be written together.  The value of an option follows
as the next word, or in the same word behind its letter or an equals sign.  A word that starts with
a hyphen is no value, unless it is the hyphen alone.  Two hyphens alone make operands of all words
after them.
-/

namespace InfoScreen.Program

structure OptionSpec where
  name : String
  letter : Option Char := none
  /-- Which values are accepted, for an option that has a value. -/
  value : Option (String → Bool) := none
  repeatable : Bool := false

/-- The options and the number of operands that a command takes.  Operands are not empty. -/
structure Grammar where
  options : List OptionSpec
  operands : Nat

/-- What the words of a command line say, in order; a switch has an empty value. -/
structure Found where
  options : List (String × String) := []
  operands : List String := []

/-- Why reading a command line ends early. -/
inductive Stop where
  | refused
  | help
  deriving DecidableEq

namespace Found

def value? (found : Found) (name : String) : Option String :=
  (found.options.find? fun option ↦ option.1 = name).map Prod.snd

/-- Adds a switch, which may come again only if it is repeatable. -/
def addSwitch (found : Found) (spec : OptionSpec) : Except Stop Found :=
  if (found.value? spec.name).isSome ∧ ¬ spec.repeatable then .error .refused
  else .ok { found with options := found.options ++ [(spec.name, "")] }

def addValue (found : Found) (spec : OptionSpec) (accepts : String → Bool) (value : String) :
    Except Stop Found :=
  if (found.value? spec.name).isSome ∨ ¬ accepts value then .error .refused
  else .ok { found with options := found.options ++ [(spec.name, value)] }

def addOperand (found : Found) (grammar : Grammar) (word : String) : Except Stop Found :=
  if word = "" ∨ grammar.operands ≤ found.operands.length then .error .refused
  else .ok { found with operands := found.operands ++ [word] }

end Found

def isOptionWord (word : String) : Bool := word.toList.head? == some '-' && word ≠ "-"

/-- Text before and behind the first equals sign. -/
def splitEquals (cs : List Char) : List Char × Option (List Char) :=
  let name := cs.takeWhile (· ≠ '=')
  match cs.drop name.length with
  | [] => (name, none)
  | _ :: value => (name, some value)

namespace Grammar

def byName? (grammar : Grammar) (name : List Char) : Option OptionSpec :=
  grammar.options.find? fun spec ↦ spec.name.toList = name

def byLetter? (grammar : Grammar) (letter : Char) : Option OptionSpec :=
  grammar.options.find? fun spec ↦ spec.letter = some letter

/-- Reads letters written together.  The first one that has a value takes the rest as its value; if
there is no rest it is answered, and still needs a value. -/
def letters (grammar : Grammar) (found : Found) :
    List Char → Except Stop (Found × Option (OptionSpec × (String → Bool)))
  | [] => .ok (found, none)
  | c :: rest =>
    match grammar.byLetter? c with
    | none => .error (if c = 'h' then .help else .refused)
    | some spec =>
      match spec.value, rest with
      | none, _ => do letters grammar (← found.addSwitch spec) rest
      | some accepts, [] => .ok (found, some (spec, accepts))
      | some accepts, c :: value =>
        let value := if c = '=' then value else c :: value
        (found.addValue spec accepts (String.ofList value)).map fun found ↦ (found, none)

def read (grammar : Grammar) (found : Found) : List String → Except Stop Found
  | [] => .ok found
  | word :: rest =>
    match word.toList with
    | ['-', '-'] => rest.foldlM (fun found word ↦ found.addOperand grammar word) found
    | '-' :: '-' :: option =>
      let (name, value) := splitEquals option
      match grammar.byName? name with
      | none => .error (if option = "help".toList then .help else .refused)
      | some spec =>
        match spec.value, value, rest with
        | none, none, rest => do read grammar (← found.addSwitch spec) rest
        | none, some _, _ => .error .refused
        | some accepts, some value, rest => do
          read grammar (← found.addValue spec accepts (String.ofList value)) rest
        | some accepts, none, value :: rest =>
          if isOptionWord value then .error .refused
          else do read grammar (← found.addValue spec accepts value) rest
        | some _, none, [] => .error .refused
    | '-' :: c :: option => do
      let (found, pending) ← grammar.letters found (c :: option)
      match pending, rest with
      | none, rest => read grammar found rest
      | some (spec, accepts), value :: rest =>
        if isOptionWord value then .error .refused
        else read grammar (← found.addValue spec accepts value) rest
      | some _, [] => .error .refused
    | _ => do read grammar (← found.addOperand grammar word) rest

end Grammar

end InfoScreen.Program
