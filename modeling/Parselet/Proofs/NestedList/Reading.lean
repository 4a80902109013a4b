import Parselet.Proofs.NestedList.Format
import Parselet.Proofs.Parser.Store
import Parselet.Proofs.Token.Lexeme

/-!
The recursive grammar reads nested lists exactly. What it reads denotes a tree by induction on the
length of the input, which an opening bracket makes shorter; that it reads every such text is an
induction on how the text is derived.
-/

namespace Parselet.NestedList

open Parselet.Parser Parselet.Text

/-- Values with commas between them. -/
def items (value : Parser) : Parser := value.sepBy (character ',')

def bracketed (value : Parser) : Parser :=
  between (character '[') (items value) (character ']')

/-- What the forward of the grammar stands for. -/
def valueParser (value : Parser) : Parser := integer.orElse (bracketed value)

/-- The steps of an item that follows another one. -/
noncomputable def continued (store : Store) (limit : Limit) (value : Parser) : Step :=
  Step.flatMap (run store limit (character ',')) fun _ => .ok (run store limit value)

variable {store : Store} {limit : Limit} {f : Forward} {value : Parser} {src rest : Text}
  {v : Value}

theorem gives_bracketed :
    (run store limit (bracketed value)).Gives src (.success v rest) ↔
      ∃ before, src = CodePoint.ofChar '[' :: before ∧
        (run store limit (items value)).Gives before
          (.success v (CodePoint.ofChar ']' :: rest)) := by
  rw [bracketed, gives_between]
  simp only [gives_character]
  grind

theorem gives_continued :
    (continued store limit value).Gives src (.success v rest) ↔
      ∃ mid, src = CodePoint.ofChar ',' :: mid ∧
        (run store limit value).Gives mid (.success v rest) := by
  rw [continued, Step.gives_flatMap_success]
  simp only [gives_character]
  grind

/-! ## Soundness -/

/-- What the parser of values reads, in inputs of at most `n` characters, denotes a tree. -/
def Sound (store : Store) (limit : Limit) (value : Parser) (n : Nat) : Prop :=
  ∀ ⦃src rest : Text⦄ ⦃v : Value⦄, src.length ≤ n →
    (run store limit value).Gives src (.success v rest) →
      ∃ t u, v = t.value ∧ src = u ++ rest ∧ Denotes (.tree t) u

theorem tail_of_repeats {n : Nat} (hvalue : Sound store limit value n) {mid : Text}
    {vs : List Value} (h : (continued store limit value).Repeats mid vs rest)
    (hn : mid.length ≤ n) :
    ∃ ts u, vs = Tree.values ts ∧ mid = u ++ rest ∧ Denotes (.tail ts) u := by
  -- on the iterations, each of which takes a comma away before it reads a value
  induction h with
  | fails | stalls => exact ⟨[], [], rfl, rfl, .stop⟩
  | next hitem hlt _ ih =>
    obtain ⟨k, rfl, hgives⟩ := gives_continued.1 hitem
    rw [List.length_cons] at hn hlt
    obtain ⟨t, u, rfl, rfl, ht⟩ := hvalue (by omega) hgives
    rw [List.length_append] at hn
    obtain ⟨ts, w, rfl, rfl, hts⟩ := ih (by omega)
    exact ⟨t :: ts, "," ++ u ++ w, rfl, by simp [Text.ofString], .next ht hts⟩

theorem items_of_gives {n : Nat} (hvalue : Sound store limit value n) (hn : src.length ≤ n)
    (h : (run store limit (items value)).Gives src (.success v rest)) :
    ∃ ts u, v = .list (Tree.values ts) ∧ src = u ++ rest ∧ Denotes (.items ts) u := by
  rcases gives_sepBy.1 h with ⟨-, rfl, rfl⟩ | ⟨w, mid, vs, hfirst, rfl, hrest⟩
  · exact ⟨[], [], rfl, rfl, .none⟩
  · obtain ⟨t, u, rfl, rfl, ht⟩ := hvalue hn hfirst
    rw [List.length_append] at hn
    obtain ⟨ts, w, rfl, rfl, hts⟩ := tail_of_repeats hvalue hrest (by omega)
    exact ⟨t :: ts, u ++ w, rfl, (List.append_assoc u w rest).symm, .some ht hts⟩

/-- A bracket is consumed before the values inside it are read. -/
theorem sound_valueParser {n : Nat} (hvalue : ∀ k < n, Sound store limit value k) :
    Sound store limit (valueParser value) n := by
  intro src rest v hn h
  rcases gives_orElse.1 h with hint | ⟨-, hlist⟩
  · obtain ⟨ds, hds, -, rfl, rfl⟩ := digits_of_gives_integer hint
    exact ⟨.leaf (decimalValue ds), ds, rfl, rfl, .leaf hds⟩
  · obtain ⟨before, rfl, hitems⟩ := gives_bracketed.1 hlist
    obtain ⟨ts, u, rfl, rfl, hts⟩ := items_of_gives (hvalue _ hn) le_rfl hitems
    exact ⟨.node ts, "[" ++ u ++ "]", rfl, by simp [Text.ofString], .node hts⟩

theorem sound_value (hf : store.target? f = some (valueParser (forward f))) (n : Nat) :
    Sound store limit (forward f) n := by
  induction n using Nat.strongRecOn with
  | ind n ih =>
    intro src rest v hn h
    exact sound_valueParser ih hn ((gives_forward hf).1 h)

/-! ## Completeness -/

/-- What the phrase is read as in front of `rest`. Items are read up to the closing bracket, and a
number up to a character that is no digit. -/
def Reads (store : Store) (value : Parser) : Phrase → Text → Prop
  | .tree t, u => ∀ rest, (t.IsLeaf → Avoids CodePoint.isDigit rest) →
      (run store none value).Gives (u ++ rest) (.success t.value rest)
  | .items ts, u => ∀ rest, (run store none (items value)).Gives
      (u ++ CodePoint.ofChar ']' :: rest)
      (.success (.list (Tree.values ts)) (CodePoint.ofChar ']' :: rest))
  | .tail ts, u => ∀ rest, (continued store none value).Repeats
      (u ++ CodePoint.ofChar ']' :: rest) (Tree.values ts) (CodePoint.ofChar ']' :: rest)

theorem closing_not_digit (rest : Text) :
    Avoids CodePoint.isDigit (CodePoint.ofChar ']' :: rest) :=
  avoids_cons.2 (by decide +kernel)

theorem fails_value_of_closing (hf : store.target? f = some (valueParser (forward f))) :
    (run store limit (forward f)).Fails (CodePoint.ofChar ']' :: rest) := by
  rw [fails_forward hf, valueParser, fails_orElse]
  refine ⟨fails_integer (closing_not_digit rest), ?_⟩
  exact fails_between_of_opening (fails_character.2 fun t h => by cases (List.cons.inj h).1)

/-- After an item comes a comma or the closing bracket. -/
theorem tail_not_digit {ts : List Tree} {w : Text} (h : Denotes (.tail ts) w) (rest : Text) :
    Avoids CodePoint.isDigit (w ++ CodePoint.ofChar ']' :: rest) := by
  cases h with
  | stop => exact closing_not_digit rest
  | next => exact avoids_cons.2 (by decide +kernel)

theorem fails_continued_of_closing :
    (continued store limit value).Fails (CodePoint.ofChar ']' :: rest) := by
  rw [continued, Step.fails_flatMap]
  exact .inl (fails_character.2 fun t h => by cases (List.cons.inj h).1)

theorem reads_of_denotes (hf : store.target? f = some (valueParser (forward f))) {ph : Phrase}
    {u : Text} (h : Denotes ph u) : Reads store (forward f) ph u := by
  induction h with
  | @leaf ds hds =>
    intro rest hrest
    rw [gives_forward hf, valueParser, gives_orElse]
    exact .inl (gives_integer_digits hds (hrest trivial))
  | @node ts u _ ih =>
    intro rest _
    rw [gives_forward hf, valueParser, gives_orElse]
    -- no number begins with a bracket
    refine .inr ⟨fails_integer (avoids_cons.2 (by decide +kernel)), gives_bracketed.2 ?_⟩
    exact ⟨u ++ CodePoint.ofChar ']' :: rest, by simp [Text.ofString], ih rest⟩
  | none => exact fun rest => gives_sepBy.2 (.inl ⟨fails_value_of_closing hf, rfl, rfl⟩)
  | @some t ts u w _ hts iht ihts =>
    intro rest
    have hitem := iht _ fun _ => tail_not_digit hts rest
    rw [List.append_assoc]
    exact gives_sepBy.2 (.inr ⟨_, _, _, hitem, rfl, ihts rest⟩)
  | stop => exact fun rest => .fails fails_continued_of_closing
  | @next t ts u w _ hts iht ihts =>
    intro rest
    have hitem := iht _ fun _ => tail_not_digit hts rest
    refine .next (gives_continued.2 ⟨_, ?_, hitem⟩) ?_ (ihts rest)
    · simp [Text.ofString]
    · simp only [List.length_append]
      simp [Text.ofString]

/-! ## The grammar that is built -/

/-- Building the grammar makes one forward, which stands for values over itself. -/
theorem grammar_builds (limit : Limit) (env : Bindings) (store₀ : Store) :
    ∃ f store, (grammar.build limit env).run store₀ = .ok (forward f, store) ∧
      store.target? f = some (valueParser (forward f)) := by
  obtain ⟨store, hdefine, htarget⟩ := store₀.exists_define_allocate "value"
    (valueParser (forward (store₀.allocate "value").1))
  refine ⟨_, store, ?_, htarget⟩
  have hbody (f : Forward) : (Expr.orElse .integer (.between (.character "[")
      (.sepBy (.ref "value") (.character ",")) (.character "]"))).build limit
        (("value", Binding.ofForward f) :: env) = Pure.pure (valueParser (forward f)) := by
    simp only [Expr.build, List.lookup_cons_self]
    rfl
  rw [grammar, Expr.build]
  simp only [StateT.run_bind, StateT.run_get, StateT.run_set, StateT.run_monadLift, monadLift_self,
    pure_bind, hbody, hdefine]
  rfl

/-- Without a limit, the grammar reads what a tree is rendered to back as that tree, whatever comes
after it, if only no digit comes after a number. Whatever it reads denotes the tree that it gives,
at any depth. -/
theorem nestedList_exact (env : Bindings) (store₀ : Store) :
    ∃ p store, (grammar.build none env).run store₀ = .ok (p, store) ∧
      (∀ (t : Tree) (rest : Text), (t.IsLeaf → Avoids CodePoint.isDigit rest) →
        p.EndsIn store none (t.render ++ rest) (.value (.success t.value rest))) ∧
      ∀ (d : Nat) (src rest : Text) (v : Value),
        (p.parse store { limit := none, depth := d } src).ending = .value (.success v rest) →
          ∃ t u, v = t.value ∧ src = u ++ rest ∧ Denotes (.tree t) u := by
  obtain ⟨f, store, hbuild, hf⟩ := grammar_builds none env store₀
  refine ⟨forward f, store, hbuild, fun t rest hrest => ?_, fun d src rest v h => ?_⟩
  · exact endsIn_iff.2 (reads_of_denotes hf (denotes_render t) rest hrest)
  · exact sound_value hf src.length le_rfl (endsIn_iff.1 (EndsIn.of_parse h nofun))

/-- A list with an empty list in it, before a digit. -/
theorem nestedList_exact_before_digit :
    ∃ p store, (grammar.build none []).run Store.empty = .ok (p, store) ∧
      p.EndsIn store none "[10,[],[2]]7"
        (.value (.success (.list [.int 10, .list [], .list [.int 2]]) "7")) := by
  obtain ⟨p, store, hbuild, hreads, -⟩ := nestedList_exact [] Store.empty
  have h := hreads (.node [.leaf 10, .node [], .node [.leaf 2]]) "7" nofun
  exact ⟨p, store, hbuild, h⟩

end Parselet.NestedList
