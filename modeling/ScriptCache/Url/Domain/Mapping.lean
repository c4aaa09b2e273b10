import ScriptCache.Text.Table
import ScriptCache.Url.Domain.MappingRows

/-!
# What characters become in a domain name
-/

namespace ScriptCache.Domain

def mappings : Text.Table := .ofText mappingRows

/-- The characters that stand for `c` by a row of the table; none where `c` may not stand in a
name. -/
def mappedBy (row : Text.Row) (c : Char) : Option (List Char) :=
  let offset := c.toNat - row.first
  let shifted := row.numbers.map fun n ↦ Char.ofNat (n + offset)
  match row.mark with
  | '!' => none
  | '~' => some []
  | '=' => some (row.numbers.map Char.ofNat)
  | ':' => some (if offset % 2 = 0 then shifted else [c])
  | _ => some shifted

/-- The characters that stand for `c` in a domain name; none where `c` may not stand in one. -/
def mapped? (c : Char) : Option (List Char) :=
  if c.toNat < 0x80 then some [c.toLower]
  else
    match mappings.find? c with
    | some row => mappedBy row c
    | none => some [c]

end ScriptCache.Domain
