import DdlCatalog.Sql.Nesting
import DdlCatalog.Text.Bytes

/-!
# Parenthesised groups
-/

namespace DdlCatalog.Sql

/-- The text between the parenthesis that starts a text and its partner, and the text after the
partner. -/
def group? : List Char → Option (List Char × List Char)
  | '(' :: text => (splitTop (· == ')') text).map fun cut => (cut.before, cut.rest)
  | _ => none

/-- The byte offset of the partner of the parenthesis that stands at a byte offset. -/
def partnerOffset? (text : String) (start : Nat) : Option Nat :=
  match Text.dropBytes? start text.toList with
  | some tail => (group? tail).map fun (inside, _) => start + 1 + Text.byteLength inside
  | none => none

end DdlCatalog.Sql
