/-!
# Documents

A document is the value that a configuration text stands for, whatever its notation.  Records are
read from tables by the names of their members, or from lists by position; a member or an item
that is left out keeps its default.
-/

namespace InfoScreen

inductive Document where
  | null
  | boolean (value : Bool)
  | integer (value : Int)
  /-- A number that is not an integer; no setting has one. -/
  | fraction
  /-- A date or a time; no setting has one. -/
  | moment
  | text (value : String)
  | list (items : List Document)
  | table (members : List (String × Document))
  deriving Inhabited

namespace Document

def boolean? : Document → Option Bool
  | boolean value => some value
  | _ => none

def text? : Document → Option String
  | text value => some value
  | _ => none

def list? : Document → Option (List Document)
  | list items => some items
  | _ => none

def below? (bound : Nat) : Document → Option Nat
  | integer (.ofNat n) => if n < bound then some n else none
  | _ => none

def uint8? (document : Document) : Option UInt8 := (document.below? UInt8.size).map UInt8.ofNat

def uint16? (document : Document) : Option UInt16 := (document.below? UInt16.size).map UInt16.ofNat

def uint32? (document : Document) : Option UInt32 := (document.below? UInt32.size).map UInt32.ofNat

def uint64? (document : Document) : Option UInt64 := (document.below? UInt64.size).map UInt64.ofNat

/-- A value that may be absent, and is if it is null. -/
def optional? {α : Type} (read : Document → Option α) : Document → Option (Option α)
  | null => some none
  | document => (read document).map some

def member? (members : List (String × Document)) (name : String) : Option Document :=
  (members.find? fun member ↦ member.1 = name).map Prod.snd

end Document

structure Document.Setting (σ : Type) where
  name : String
  set : σ → Document → Option σ

/-- Reads a record, starting from its defaults.  Unknown members of a table are refused; surplus
items of a list are refused if `exact`. -/
def Document.record? {σ : Type} (exact : Bool) (settings : List (Document.Setting σ))
    (defaults : σ) : Document → Option σ
  | .table members =>
    members.foldlM (fun record (name, document) ↦
      match settings.find? fun setting ↦ setting.name = name with
      | some setting => setting.set record document
      | none => none) defaults
  | .list items =>
    if exact ∧ settings.length < items.length then none
    else
      (settings.zip items).foldlM (fun record (setting, document) ↦ setting.set record document)
        defaults
  | _ => none

end InfoScreen
