import Parselet.Grammar.Expr
import Parselet.Proofs.Text.Span

/-!
Nested lists of numbers: the trees, the texts that denote them, and the recursive grammar for them.
-/

namespace Parselet

namespace NestedList

/-- A number, or a list of trees. -/
inductive Tree where
  | leaf (n : Nat)
  | node (items : List Tree)

mutual

def Tree.value : Tree → Value
  | .leaf n => .int n
  | .node items => .list (Tree.values items)

def Tree.values : List Tree → List Value
  | [] => []
  | t :: ts => t.value :: Tree.values ts

end

mutual

/-- Numbers in decimal, and lists in brackets with commas between the items. -/
def Tree.render : Tree → Text
  | .leaf n => Text.ofNat n
  | .node items => "[" ++ Text.join "," (Tree.renderAll items) ++ "]"

def Tree.renderAll : List Tree → List Text
  | [] => []
  | t :: ts => t.render :: Tree.renderAll ts

end

def Tree.IsLeaf : Tree → Prop
  | .leaf _ => True
  | .node _ => False

/-- The phrases of the grammar. A tail of items has a comma before every one of them. -/
inductive Phrase where
  | tree (t : Tree)
  | items (ts : List Tree)
  | tail (ts : List Tree)

/-- The texts of a phrase. A number may be written with any run of decimal digits. -/
inductive Denotes : Phrase → Text → Prop
  | leaf {ds : Text} : ds.IsDigits → Denotes (.tree (.leaf ds.decimalValue)) ds
  | node {ts : List Tree} {u : Text} : Denotes (.items ts) u →
      Denotes (.tree (.node ts)) ("[" ++ u ++ "]")
  | none : Denotes (.items []) []
  | some {t : Tree} {ts : List Tree} {u w : Text} : Denotes (.tree t) u → Denotes (.tail ts) w →
      Denotes (.items (t :: ts)) (u ++ w)
  | stop : Denotes (.tail []) []
  | next {t : Tree} {ts : List Tree} {u w : Text} : Denotes (.tree t) u → Denotes (.tail ts) w →
      Denotes (.tail (t :: ts)) ("," ++ u ++ w)

mutual

/-- What a tree is rendered to denotes it. -/
theorem denotes_render : (t : Tree) → Denotes (.tree t) t.render
  | .leaf n => by
    obtain ⟨hdigits, hvalue⟩ := Text.digits_ofNat n
    have h := Denotes.leaf hdigits
    rwa [hvalue] at h
  | .node [] => .node .none
  | .node (t :: ts) => by
    rw [Tree.render, Tree.renderAll, Text.join_cons]
    exact .node (.some (denotes_render t) (denotes_tail ts))

theorem denotes_tail : (ts : List Tree) →
    Denotes (.tail ts) ((Tree.renderAll ts).flatMap (Text.ofString "," ++ ·))
  | [] => .stop
  | t :: ts => .next (denotes_render t) (denotes_tail ts)

end

/-- A value is a number, or a list of values in brackets. -/
def grammar : Expr :=
  .fix "value" "value" (.orElse .integer
    (.between (.character "[") (.sepBy (.ref "value") (.character ",")) (.character "]")))

example : (Tree.node [.leaf 10, .node [], .node [.leaf 2]]).render = "[10,[],[2]]" := by
  decide +kernel

end NestedList

end Parselet
