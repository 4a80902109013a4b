import Mathlib.Logic.Relation
import Parselet.Parser.Basic

/-!
The parsers that a parser is made of, and those it may come to run in a store. Both are what the
bodies name: a continuation names every parser that it gives for some value.
-/

namespace Parselet

/-- The body has `q` as a part. A forward has no part; what it stands for is in the store. -/
def Body.Has (q : Parser) : Body → Prop
  | .map p _ => q = p
  | .flatMap p next => q = p ∨ ∃ limit v, next limit v = .ok q
  | .orElse p p' => q = p ∨ q = p'
  | .many p => q = p
  | .nonempty p => q = p
  | .optional p => q = p
  | .sepBy content separator => q = content ∨ q = separator
  | .seq ps => q ∈ ps
  | .oneOf ps => q ∈ ps
  | .lookahead p => q = p
  | .inverted p => q = p
  | _ => False

/-- What holds of a parser if it holds of its parts holds of all parsers. -/
theorem Parser.induction_on_parts {motive : Parser → Prop}
    (h : ∀ name b, (∀ q, b.Has q → motive q) → motive (.mk name b)) (p : Parser) : motive p := by
  -- the parts of a body stand alone, in a list, or behind a continuation that may be a fault
  refine Parser.rec (motive_1 := motive) (motive_2 := fun b => ∀ q, b.Has q → motive q)
    (motive_3 := fun e => ∀ q, e = .ok q → motive q) (motive_4 := fun ps => ∀ q ∈ ps, motive q)
    h ?pure ?fail ?eof ?character ?satisfy ?string ?anycase ?regex ?map ?flatMap ?orElse ?many
    ?nonempty ?optional ?sepBy ?seq ?oneOf ?lookahead ?inverted ?forward ?custom ?error ?ok ?nil
    ?cons p
  case map => rintro p f hp q rfl; exact hp
  case flatMap =>
    rintro p next hp hnext q (rfl | ⟨limit, v, hq⟩)
    · exact hp
    · exact hnext limit v q hq
  case orElse => rintro p p' hp hp' q (rfl | rfl) <;> assumption
  case many => rintro p hp q rfl; exact hp
  case nonempty => rintro p hp q rfl; exact hp
  case optional => rintro p hp q rfl; exact hp
  case sepBy => rintro p p' hp hp' q (rfl | rfl) <;> assumption
  case seq => exact fun _ h => h
  case oneOf => exact fun _ h => h
  case lookahead => rintro p hp q rfl; exact hp
  case inverted => rintro p hp q rfl; exact hp
  case ok => rintro p hp q ⟨⟩; exact hp
  case cons => exact fun _ _ hp hps => List.forall_mem_cons.2 ⟨hp, hps⟩
  all_goals
    intros
    contradiction

namespace Store

/-- A run of `p` in the store may call `q`. -/
def Calls (store : Store) (p q : Parser) : Prop :=
  p.body.Has q ∨ ∃ f, p.body = .forward f ∧ store.target? f = some q

/-- A run of `p` in the store may call `q`, perhaps through other calls, or `q` is `p` itself. -/
def Reaches (store : Store) : Parser → Parser → Prop := Relation.ReflTransGen store.Calls

end Store

end Parselet
