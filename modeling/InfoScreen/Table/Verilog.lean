import InfoScreen.Config
import InfoScreen.Table

/-!
# Tables in SystemVerilog

Each entry is one assignment to an element of the table.  Addresses and offsets are sized literals;
an offset has as many hexadecimal digits as its field needs.
-/

namespace InfoScreen.Table.Verilog

open Text

def bit (b : Bool) : String := if b then "1" else "0"

def line (encoding : Encoding) (entry : Entry) : String :=
  encoding.tableName ++ "[" ++ decimal entry.index ++ "] = '\x7b v_ada: " ++
    decimal encoding.addressBits.toNat ++ "'d" ++ decimal entry.address ++
    ", v_din_t: " ++ decimal entry.valueType.code ++
    ", v_din: " ++ decimal entry.value.toNat ++
    ", adb_diff: " ++ decimal encoding.diffBits.toNat ++ "'h" ++
    paddedUpperHex encoding.diffDigits entry.secondary.toNat ++
    ", vram_write: " ++ bit entry.displayWrite ++
    ", mem_read: " ++ bit entry.memoryRead ++ "\x7d;\n"

def render (encoding : Encoding) (bank : Bank) : String :=
  String.join (bank.entries.toList.map (line encoding))

end InfoScreen.Table.Verilog
