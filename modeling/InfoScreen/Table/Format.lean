import InfoScreen.Table.Json
import InfoScreen.Table.Verilog

/-!
# Table formats

A bank is written as SystemVerilog assignments or as a JSON object.  The tables of a screen are its
banks with the encoding and the offset after the last displayed byte.
-/

namespace InfoScreen

inductive TableFormat where
  | systemVerilog
  | json
  deriving DecidableEq

def TableFormat.render (format : TableFormat) (encoding : Encoding) (bank : Bank) : String :=
  match format with
  | systemVerilog => Table.Verilog.render encoding bank
  | json => Table.Json.render encoding.tableName bank

structure Tables where
  banks : List Bank
  encoding : Encoding
  finalAddress : Nat
  deriving DecidableEq

namespace Tables

def entryCount (tables : Tables) : Nat :=
  tables.banks.foldl (fun count bank ↦ count + bank.entries.size) 0

def render (tables : Tables) (bank : Nat) (format : TableFormat) : Outcome String :=
  match tables.banks[bank]? with
  | some table => pure (format.render tables.encoding table)
  | none => refuse (.noSuchBank bank tables.banks.length)

end Tables

end InfoScreen
