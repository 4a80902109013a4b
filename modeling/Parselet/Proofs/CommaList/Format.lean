import Parselet.Proofs.QuotedString.Format
import Parselet.Proofs.Parser.Depth
import Parselet.Proofs.Token.Name

/-!
Renderings of lists: items in brackets with commas between them, and white space around every part.
What an item is depends on the parser for it; items of the library are numbers, names, quoted texts
and, again, lists.
-/

namespace Parselet.CommaList

open Parselet.Parser Parselet.Text

/-- What may follow an item of a list. -/
def Follows (k : Text) : Prop :=
  ∃ c t, k = c :: t ∧ (c = CodePoint.ofChar ',' ∨ c = CodePoint.ofChar ']' ∨ c.isSpace = true)

/-- `p` reads `t` as `v`, and skips the white space after it, wherever an item may stand. -/
structure IsItem (store : Store) (limit : Limit) (p : Parser) (t : Text) (v : Value) : Prop where
  ne_nil : t ≠ []
  not_space : Avoids CodePoint.isSpace t
  reads : ∀ k, Follows k → (lexeme p).EndsIn store limit (t ++ k) (.value (.success v k.trimStart))

/-- `p` takes no closing bracket for an item. -/
def FailsAtClosing (store : Store) (limit : Limit) (p : Parser) : Prop :=
  ∀ k, ∃ m s, p.EndsIn store limit (CodePoint.ofChar ']' :: k) (.value (.failure m s))

/-- The text of an item, what it stands for, and the white space around it. -/
structure Slot where
  before : Text
  text : Text
  after : Text
  value : Value

namespace Slot

def render (s : Slot) : Text := s.before ++ s.text ++ s.after

structure IsSpaced (s : Slot) : Prop where
  before : IsBlank s.before
  after : IsBlank s.after

end Slot

/-- The slots in brackets. Without any, `inside` is all that stands between the brackets. -/
def render (inside : Text) (slots : List Slot) : Text :=
  "[" ++ inside ++ join "," (slots.map Slot.render) ++ "]"

/-- Items of the library with the parsers for them, lists nested to any depth among them. No item
begins with white space, so a quote is none, and a list has none before its bracket. -/
inductive Denotes (store : Store) (limit : Limit) : Parser → Text → Value → Prop
  | integer {ds : Text} : IsDigits ds → limit.allows ds.length = true →
      Denotes store limit integer ds (.int (decimalValue ds))
  | identifier {c : CodePoint} {t : Text} : c.startsName = true →
      (∀ d ∈ t, d.continuesName = true) → Denotes store limit identifier (c :: t) (.text (c :: t))
  | quoted {y : QuotedString.Style} {us : List QuotedString.Piece} : y.quote ≠ y.escape →
      y.quote.isSpace = false → QuotedString.LegalBefore y [y.quote] us →
      Denotes store limit (quotedString y.quote y.escape y.escapes)
        (y.quote :: (QuotedString.spelled y us ++ [y.quote])) (.text (QuotedString.meant us))
  | list {p : Parser} {slots : List Slot} {inside closing : Text} : IsBlank inside →
      IsBlank closing → (∀ s ∈ slots, s.IsSpaced) → (slots = [] → FailsAtClosing store limit p) →
      (∀ s ∈ slots, Denotes store limit p s.text s.value) →
      Denotes store limit (commaList p) (render inside slots ++ closing)
        (.list (slots.map Slot.value))

/-- Every rendering of the slots is read as their values, whatever comes after it. -/
def ReadsBack (store : Store) (limit : Limit) (p : Parser) (slots : List Slot) : Prop :=
  ∀ leading inside closing rest, IsBlank leading → IsBlank inside → IsBlank closing →
    (commaList p).EndsIn store limit (leading ++ render inside slots ++ closing ++ rest)
      (.value (.success (.list (slots.map Slot.value)) rest.trimStart))

end Parselet.CommaList
