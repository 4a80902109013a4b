import Parselet.Proofs.Arithmetic.Chain
import Parselet.Proofs.Parser.Store

/-!
The parser of integer arithmetic accepts the texts of its grammar, with their values, and no others.
What it reads is a text of the grammar by induction on the length of the input, which an opening
parenthesis makes shorter; that it reads every text is an induction on how the text is derived.
-/

namespace Parselet.Arithmetic

open Parselet.Parser Parselet.Text

variable {store : Store} {limit : Limit} {f : Forward} {operand expr : Parser} {src rest : Text}
  {v : Value} {r : Rank}

/-! ## Soundness -/

/-- What `p` reads, in inputs of at most `n` characters, are texts of the phrase. -/
def Sound (store : Store) (limit : Limit) (p : Parser) (ph : Phrase) (n : Nat) : Prop :=
  ∀ {src rest : Text} {v : Value}, src.length ≤ n →
    (run store limit p).Gives src (.success v rest) →
      ∃ t i, v = .int i ∧ src = t ++ rest ∧ Denotes ph t (some i)

/-- An iteration of a tail reads an operator and an operand. The accumulated value is carried
along, as the grammar has it. -/
theorem tail_of_repeats {n : Nat} (hoperand : Sound store limit operand r.operand n) {mid : Text}
    {vs : List Value} (h : (run store limit (seq [r.symbols, operand])).Repeats mid vs rest)
    (hn : mid.length ≤ n) {a i : Int} (hi : applyAll a vs = .ok (some i)) :
    ∃ u, mid = u ++ rest ∧ Denotes (.tail r (some a)) u (some i) := by
  -- on the iterations, with the value so far as accumulator
  induction h generalizing a with
  | fails | stalls =>
    cases hi
    exact ⟨[], rfl, .stop⟩
  | @next src mid left v vs hpair hlt _ ih =>
    obtain ⟨w, mid', w', hsymbol, hw', rfl⟩ := gives_pair.1 hpair
    obtain ⟨s, o, k, hs, rfl, rfl, rfl⟩ := gives_symbols.1 hsymbol
    obtain ⟨b, hb, hk⟩ := exists_blank_trimStart k
    have hlen : k.trimStart.length ≤ n := by
      have := congrArg List.length hk
      simp only [List.length_append] at this hn
      omega
    obtain ⟨t, j, rfl, ht, hdenotes⟩ := hoperand hlen hw'
    obtain ⟨c, hc, hi⟩ := applyAll_cons_eq_some.1 hi
    obtain ⟨u, hu, hrest⟩ := ih (by omega) hi
    have hcombine : combine o (some a) (some j) = some c :=
      combine_eq_some.2 ⟨a, j, rfl, rfl, by rw [← o.apply_eq_exact, hc]⟩
    refine ⟨s ++ b ++ (t ++ u), ?_, .next hs hb hdenotes (hcombine ▸ hrest)⟩
    rw [hk, ht, hu]
    simp only [List.append_assoc]

theorem sound_chain {n : Nat} (hoperand : Sound store limit operand r.operand n) :
    Sound store limit (chain operand r.symbols) (.chain r) n := by
  intro src rest v hn h
  obtain ⟨w, mid, vs, hw, hvs, a, i, rfl, rfl, hi⟩ := applyAll_of_gives_chain h
  obtain ⟨t, a', ha', rfl, ht⟩ := hoperand hn hw
  cases ha'
  have hmid : mid.length ≤ n := by
    rw [List.length_append] at hn
    omega
  obtain ⟨u, rfl, hu⟩ := tail_of_repeats hoperand hvs hmid hi
  exact ⟨t ++ u, i, rfl, by rw [List.append_assoc], .chain ht hu⟩

/-- A parenthesis is consumed before the expression inside it is read. -/
theorem sound_factor {n : Nat}
    (hexpr : ∀ k < n, Sound store limit expr (.chain .sum) k) :
    Sound store limit (factor expr) .factor n := by
  intro src rest v hn h
  rcases gives_orElse.1 h with h | ⟨-, h⟩
  -- a number
  · obtain ⟨mid, hint, rfl⟩ := gives_lexeme.1 h
    obtain ⟨ds, hds, -, rfl, rfl⟩ := digits_of_gives_integer hint
    obtain ⟨b, hb, hmid⟩ := exists_blank_trimStart mid
    exact ⟨ds ++ b, _, rfl, by rw [List.append_assoc, ← hmid], .number hds hb⟩
  -- a group, whose inside is shorter by the parenthesis
  · obtain ⟨w, k, w', k', hopen, hinner, hclose⟩ := gives_between.1 h
    obtain ⟨m, rfl, -, rfl⟩ := gives_symbol.1 hopen
    obtain ⟨m', rfl, -, rfl⟩ := gives_symbol.1 hclose
    obtain ⟨b, hb, hm⟩ := exists_blank_trimStart m
    obtain ⟨b', hb', hm'⟩ := exists_blank_trimStart m'
    have hne : Text.ofString "(" ≠ [] := List.cons_ne_nil _ _
    have hlen : m.trimStart.length < n := (length_trimStart_lt_append hne m).trans_le hn
    obtain ⟨t, i, rfl, ht, hdenotes⟩ := hexpr _ hlen le_rfl hinner
    refine ⟨"(" ++ b ++ (t ++ (")" ++ b')), i, rfl, ?_, .group hb hdenotes hb'⟩
    conv_lhs => rw [hm, ht, hm']
    simp only [List.append_assoc]

theorem sound_expr (hf : store.target? f = some (Parser.sum (forward f))) (n : Nat) :
    Sound store limit (forward f) (.chain .sum) n := by
  induction n using Nat.strongRecOn with
  | ind n ih =>
    -- the expression inside a group is the only use of the induction
    have hfactor : Sound store limit (factor (forward f)) .factor n := sound_factor ih
    have hterm : Sound store limit (term (forward f)) (.chain .product) n := by
      rw [show term (forward f) = Rank.product.parser (forward f) from rfl, Rank.parser_eq_chain]
      exact sound_chain hfactor
    have hsum : Sound store limit (Parser.sum (forward f)) (.chain .sum) n := by
      rw [show Parser.sum (forward f) = Rank.sum.parser (forward f) from rfl, Rank.parser_eq_chain]
      exact sound_chain hterm
    intro src rest v hn h
    exact hsum hn ((gives_forward hf).1 h)

/-! ## Completeness -/

/-- What may follow a chain of a rank in a text that goes on with other tokens: the operators that
bind less tightly, or a closing parenthesis. -/
def Rank.followers : Rank → Text
  | product => ")+-"
  | sum => ")"

def Phrase.followers : Phrase → Text
  | factor => ")+-*/"
  | chain r => r.followers
  | tail r _ => r.followers

/-- `k` is empty or begins with a character that may follow the phrase. -/
def Follows (ph : Phrase) (k : Text) : Prop := ∀ c ∈ k.head?, c ∈ ph.followers

theorem follows_nil (ph : Phrase) : Follows ph [] := by simp [Follows]

theorem Rank.followers_subset_factor (r : Rank) : r.followers ⊆ Phrase.factor.followers := by
  cases r <;> decide

theorem followers_subset_factor (ph : Phrase) : ph.followers ⊆ Phrase.factor.followers := by
  cases ph with
  | factor => exact List.Subset.refl _
  | chain r => exact r.followers_subset_factor
  | tail r acc => exact r.followers_subset_factor

theorem Follows.avoids {ph : Phrase} {k : Text} (h : Follows ph k) :
    Avoids CodePoint.isSpace k ∧ Avoids CodePoint.isDigit k := by
  have hall : Phrase.factor.followers.all (fun c => !c.isSpace && !c.isDigit) = true := by
    decide
  have hone (c : CodePoint) (hc : c ∈ k.head?) : c.isSpace = false ∧ c.isDigit = false := by
    have hmem := followers_subset_factor ph (h c hc)
    simpa using List.all_eq_true.1 hall c hmem
  exact ⟨fun c hc => (hone c hc).1, fun c hc => (hone c hc).2⟩

/-- The operators of a rank end its operands. -/
theorem Rank.operator_follows {s : Text} {o : Operator} {c : CodePoint}
    (h : (s, o) ∈ r.operators) (hc : c ∈ s.head?) : c ∈ r.operand.followers := by
  have hall : ∀ r : Rank, r.operators.all (fun x => x.1.head?.all fun c =>
      r.operand.followers.contains c) = true := by
    intro r
    cases r <;> decide
  have hs := List.all_eq_true.1 (hall r) _ h
  rw [Option.mem_def.1 hc] at hs
  simpa using hs

theorem Rank.exists_head {s : Text} {o : Operator} (h : (s, o) ∈ r.operators) :
    ∃ c, c ∈ s.head? := by
  obtain ⟨c, rfl⟩ := List.length_eq_one_iff.1 (length_operator h)
  exact ⟨c, rfl⟩

/-- The ranks whose operators are looked for after a chain of the rank. -/
def Rank.continued : Rank → List Rank
  | product => [product]
  | sum => [product, sum]

def Phrase.continued : Phrase → List Rank
  | factor => []
  | chain r => r.continued
  | tail r _ => r.continued

theorem Rank.mem_continued (r : Rank) : r ∈ r.continued := by
  cases r <;> simp [continued]

theorem Phrase.operator_not_follower {ph : Phrase} (hr : r ∈ ph.continued) {s : Text} {o : Operator}
    {c : CodePoint} (h : (s, o) ∈ r.operators) (hc : c ∈ s.head?) : c ∉ ph.followers := by
  have hall : ∀ q : Rank, q.continued.all (fun r => r.operators.all fun x =>
      x.1.head?.all fun c => !q.followers.contains c) = true := by
    intro q
    cases q <;> decide
  have hrank (q : Rank) (hr : r ∈ q.continued) : c ∉ q.followers := by
    have hs := List.all_eq_true.1 (List.all_eq_true.1 (hall q) r hr) _ h
    rw [Option.mem_def.1 hc] at hs
    simpa using hs
  cases ph with
  | factor => cases hr
  | chain q => exact hrank q hr
  | tail q a => exact hrank q hr

/-- Behind the text `t` of the phrase, `k` goes on with nothing that its parser would read. -/
structure Stops (store : Store) (expr : Parser) (ph : Phrase) (t k : Text) : Prop where
  space : Avoids CodePoint.isSpace k
  digit : ∀ c ∈ t.getLast?, c.isDigit = true → Avoids CodePoint.isDigit k
  pair : ∀ r ∈ ph.continued, (run store none (seq [r.symbols, r.operandParser expr])).Fails k

theorem Follows.stops {ph : Phrase} {k : Text} (h : Follows ph k) (t : Text) :
    Stops store expr ph t k := by
  refine ⟨h.avoids.1, fun _ _ _ => h.avoids.2, fun r hr => ?_⟩
  rw [fails_seq_cons]
  refine .inl (fails_symbols.2 fun s o hs => ?_)
  rintro ⟨k', rfl⟩
  obtain ⟨c, hc⟩ := Rank.exists_head hs
  have hhead : c ∈ (s ++ k').head? := List.mem_head?_append_of_mem_head? hc
  exact Phrase.operator_not_follower hr hs hc (h c hhead)

/-- Only the end of the text matters. -/
theorem Stops.of_append {ph ph' : Phrase} {w t k : Text} (h : Stops store expr ph (w ++ t) k)
    (hsub : ph'.continued ⊆ ph.continued) : Stops store expr ph' t k :=
  ⟨h.space, fun c hc => h.digit c (List.mem_getLast?_append_of_mem_getLast? hc),
    fun r hr => h.pair r (hsub hr)⟩

theorem Rank.operand_continued_subset (r : Rank) : r.operand.continued ⊆ r.continued := by
  cases r <;> simp [operand, Phrase.continued, continued]

/-- An operand stops where the tail behind it begins. -/
theorem Stops.before_tail {ph : Phrase} {w t u k : Text} {a v : Option Int}
    (h : Stops store expr ph (w ++ (t ++ u)) k) (hph : ph.continued = r.continued)
    (hu : Denotes (.tail r a) u v) : Stops store expr r.operand t (u ++ k) := by
  rcases hu.head with rfl | ⟨s, o, u, hs, rfl⟩
  · rw [List.append_nil] at h
    exact h.of_append (hph ▸ r.operand_continued_subset)
  · refine Follows.stops ?_ t
    obtain ⟨d, hd⟩ := Rank.exists_head hs
    intro c hc
    have hhead : d ∈ (s ++ u ++ k).head? := by
      rw [List.append_assoc]
      exact List.mem_head?_append_of_mem_head? hd
    rw [Option.mem_unique hc hhead]
    exact Rank.operator_follows hs hd

/-- The tail of a chain stops where the chain does. -/
theorem Stops.of_tail {ph : Phrase} {w t u k : Text} {a : Option Int}
    (h : Stops store expr ph (w ++ (t ++ u)) k) (hph : ph.continued = r.continued) :
    Stops store expr (.tail r a) u k := by
  rw [← List.append_assoc] at h
  exact h.of_append (hph ▸ List.Subset.refl _)

theorem Stops.avoids_isDigit {ds b k : Text} (h : Stops store expr .factor (ds ++ b) k)
    (hds : ds.IsDigits) (hb : b.IsBlank) : Avoids CodePoint.isDigit (b ++ k) := by
  cases b with
  | nil =>
    rw [List.append_nil] at h
    have hlast := List.getLast_mem hds.1
    exact h.digit _ (List.getLast?_eq_getLast_of_ne_nil hds.1) (hds.2 _ hlast)
  | cons c b =>
    -- white space at the end of a number does not lengthen it
    refine avoids_cons.2 (Bool.eq_false_iff.2 fun hdigit => ?_)
    have hspace := hb c (by simp)
    rw [CodePoint.not_isSpace_of_isDigit hdigit] at hspace
    cases hspace

/-- Text that begins as a number or a group does has no white space before it. -/
theorem avoids_isSpace_of_head {t : Text}
    (h : ∃ c u, t = c :: u ∧ (c.isDigit = true ∨ c = openParen)) (k : Text) :
    Avoids CodePoint.isSpace (t ++ k) := by
  obtain ⟨c, u, rfl, hc⟩ := h
  refine avoids_cons.2 ?_
  rcases hc with hdigit | rfl
  · exact CodePoint.not_isSpace_of_isDigit hdigit
  · decide

theorem Denotes.operand_avoids_isSpace {t : Text} {a : Option Int} (h : Denotes r.operand t a)
    (k : Text) : Avoids CodePoint.isSpace (t ++ k) :=
  avoids_isSpace_of_head h.operand_head k

/-- The parser of a phrase reads a text of value `n` where `k` is left. Of a tail, the parser that
is repeated reads the operators and operands. -/
def Reads (store : Store) (expr : Parser) : Phrase → Text → Int → Text → Prop
  | .factor, src, n, k => (run store none (factor expr)).Gives src (.success (.int n) k)
  | .chain r, src, n, k => (run store none (r.parser expr)).Gives src (.success (.int n) k)
  | .tail r acc, src, n, k => ∃ a vs, acc = some a ∧
      (run store none (seq [r.symbols, r.operandParser expr])).Repeats src vs k ∧
        applyAll a vs = .ok (some n)

theorem Reads.gives_operand {n : Int} {k : Text} (h : Reads store expr r.operand src n k) :
    (run store none (r.operandParser expr)).Gives src (.success (.int n) k) := by
  cases r with
  | product => exact h
  | sum => exact h

/-- A group is not taken for a number, so its parenthesis is looked for. -/
theorem fails_number_of_opening (m : Text) :
    (run store limit (lexeme integer)).Fails ("(" ++ m) :=
  fails_lexeme.2 (fails_integer (avoids_cons.2 (by decide)))

theorem gives_opening {b m : Text} (hb : b.IsBlank) (hm : Avoids CodePoint.isSpace m) :
    (run store limit (symbol "(")).Gives ("(" ++ (b ++ m)) (.success (.text "(") m) :=
  gives_symbol.2 ⟨_, rfl, rfl, (hb.trimStart_append hm).symm⟩

theorem gives_operator {s b m : Text} {o : Operator} (hs : (s, o) ∈ r.operators) (hb : b.IsBlank)
    (hm : Avoids CodePoint.isSpace m) :
    (run store limit r.symbols).Gives (s ++ (b ++ m)) (.success (.operator o) m) :=
  gives_symbols.2 ⟨s, o, _, hs, rfl, rfl, (hb.trimStart_append hm).symm⟩

/-- An operator and an operand are one iteration of the tail of a chain. -/
theorem repeats_next {s b m mid : Text} {o : Operator} {j : Int} {vs : List Value}
    (hs : (s, o) ∈ r.operators) (hb : b.IsBlank) (hm : Avoids CodePoint.isSpace m)
    (hoperand : (run store limit operand).Gives m (.success (.int j) mid))
    (hle : mid.length ≤ m.length)
    (hvs : (run store limit (seq [r.symbols, operand])).Repeats mid vs rest) :
    (run store limit (seq [r.symbols, operand])).Repeats (s ++ (b ++ m))
      (.tuple [.operator o, .int j] :: vs) rest := by
  refine .next (gives_pair.2 ⟨_, _, _, gives_operator hs hb hm, hoperand, rfl⟩) ?_ hvs
  simp only [List.length_append, Rank.length_operator hs]
  omega

/-- By induction on the derivation: each text is read up to where its parser stops. -/
theorem reads_of_stops (hf : store.target? f = some (Parser.sum (forward f))) {ph : Phrase}
    {t : Text} {v : Option Int} (h : Denotes ph t v) {n : Int} {k : Text} (hv : v = some n)
    (hk : Stops store (forward f) ph t k) : Reads store (forward f) ph (t ++ k) n k := by
  induction h generalizing n k with
  | @number ds b hds hb =>
    cases hv
    have hspace := (hb.trimStart_append hk.space).symm
    have hdigits : (run store none integer).Gives (ds ++ (b ++ k))
        (.success (.int (decimalValue ds)) (b ++ k)) :=
      gives_integer_digits hds (hk.avoids_isDigit hds hb)
    rw [List.append_assoc]
    exact gives_orElse.2 (.inl (gives_lexeme.2 ⟨b ++ k, hdigits, hspace⟩))
  | @group b t b' v hb ht hb' ih =>
    have hinner : Follows (.chain .sum) (")" ++ (b' ++ k)) := by
      intro c hc
      cases hc
      decide
    have hspace := (hb'.trimStart_append hk.space).symm
    have hopen : (run store none (symbol "(")).Gives ("(" ++ (b ++ (t ++ (")" ++ (b' ++ k)))))
        (.success (.text "(") (t ++ (")" ++ (b' ++ k)))) :=
      gives_opening hb (avoids_isSpace_of_head ht.head _)
    have hclose : (run store none (symbol ")")).Gives (")" ++ (b' ++ k))
        (.success (.text ")") k) :=
      gives_symbol.2 ⟨_, rfl, rfl, hspace⟩
    have hexpr := (gives_forward hf).2 (ih hv (hinner.stops t))
    have hbetween := gives_between.2 ⟨_, _, _, _, hopen, hexpr, hclose⟩
    simp only [List.append_assoc]
    exact gives_orElse.2 (.inr ⟨fails_number_of_opening _, hbetween⟩)
  | @chain r t u a v ht hu iht ihu =>
    rw [← List.nil_append (t ++ u)] at hk
    obtain ⟨i, vs, rfl, hvs, hi⟩ := ihu hv (hk.of_tail rfl)
    have hfirst := (iht rfl (hk.before_tail rfl hu)).gives_operand
    rw [List.append_assoc]
    show (run store none (r.parser (forward f))).Gives _ _
    rw [Rank.parser_eq_chain]
    exact gives_chain_of_applyAll hfirst hvs hi
  | @stop r a =>
    -- what follows is no operator with an operand, so the repetition ends here
    exact ⟨n, [], hv, .fails (hk.pair r r.mem_continued), rfl⟩
  | @next r s b t u o a x v hs hb ht hu iht ihu =>
    obtain ⟨m, vs, hm, hvs, hi⟩ := ihu hv (hk.of_tail rfl)
    -- the whole has a value, so neither operand nor this operation lacks one
    obtain ⟨i, j, rfl, rfl, hij⟩ := combine_eq_some.1 hm
    have hoperand := (iht rfl (hk.before_tail rfl hu)).gives_operand
    refine ⟨i, .tuple [.operator o, .int j] :: vs, rfl, ?_, ?_⟩
    · simp only [List.append_assoc]
      exact repeats_next hs hb (ht.operand_avoids_isSpace (u ++ k)) hoperand
        (List.suffix_append t _).length_le hvs
    · exact applyAll_cons_eq_some.2 ⟨_, (o.apply_eq_exact i j).trans hij, hi⟩

/-- Each text is read up to what may follow it. -/
theorem reads_of_denotes (hf : store.target? f = some (Parser.sum (forward f))) {ph : Phrase}
    {t : Text} {v : Option Int} (h : Denotes ph t v) {n : Int} {k : Text} (hv : v = some n)
    (hk : Follows ph k) : Reads store (forward f) ph (t ++ k) n k :=
  reads_of_stops hf h hv (hk.stops t)

/-! ## The parser that is built -/

theorem gives_arithmetic {name : Text} :
    (run store limit ((skipWhitespace.andThen expr).named name)).Gives src (.success v rest) ↔
      (run store limit expr).Gives src.trimStart (.success v rest) := by
  rw [gives_named, gives_andThen]
  simp only [gives_skipWhitespace]
  grind

/-- The parser that is built around a forward for expressions. -/
def reader (f : Forward) : Parser := (skipWhitespace.andThen (forward f)).named "arithmetic"

/-- Building the parser makes one forward, which stands for the sums over itself. -/
theorem arithmetic_builds (store₀ : Store) :
    ∃ f store, arithmetic.run store₀ =
        .ok ((skipWhitespace.andThen (forward f)).named "arithmetic", store) ∧
      store.target? f = some (Parser.sum (forward f)) := by
  obtain ⟨store, hdefine, htarget⟩ := store₀.exists_define_allocate "expr"
    (Parser.sum (forward (store₀.allocate "expr").1))
  refine ⟨_, store, ?_, htarget⟩
  unfold arithmetic
  simp only [StateT.run_bind, StateT.run_get, pure_bind, StateT.run_monadLift, monadLift_self,
    hdefine]
  rfl

/-- The parser of arithmetic, before the end of the input, gives exactly the values of the texts of
its grammar. Whatever it consumes of an input is such a text, at any depth and any limit. -/
theorem arithmetic_exact (store₀ : Store) :
    ∃ p store, arithmetic.run store₀ = .ok (p, store) ∧
      (∀ (src : Text) (n : Int),
        (p.followedBy eof).EndsIn store none src (.value (.success (.int n) [])) ↔
          IsText src (some n)) ∧
      ∀ (limit : Limit) (d : Nat) (src rest : Text) (v : Value),
        (p.parse store { limit, depth := d } src).ending = .value (.success v rest) →
          ∃ t n, v = .int n ∧ src = t ++ rest ∧ IsText t (some n) := by
  obtain ⟨f, store, hbuild, hf⟩ := arithmetic_builds store₀
  have hsound {limit : Limit} {src rest : Text} {v : Value}
      (h : (run store limit (forward f)).Gives src.trimStart (.success v rest)) :
      ∃ t n, v = .int n ∧ src = t ++ rest ∧ IsText t (some n) := by
    obtain ⟨e, n, rfl, he, hdenotes⟩ := sound_expr hf _ le_rfl h
    obtain ⟨b, hb, hsrc⟩ := exists_blank_trimStart src
    refine ⟨b ++ e, n, rfl, ?_, b, e, rfl, hb, hdenotes⟩
    rw [hsrc, he, List.append_assoc]
  refine ⟨_, store, hbuild, fun src n => ?_, fun limit d src rest v h => ?_⟩
  · rw [endsIn_iff]
    show (run store none _).Gives src _ ↔ _
    rw [gives_followedBy]
    constructor
    -- the end of the input leaves nothing over
    · rintro ⟨w, mid, hgives, heof⟩
      obtain ⟨rfl, -, -⟩ := gives_eof.1 heof
      obtain ⟨t, m, hm, rfl, ht⟩ := hsound (gives_arithmetic.1 hgives)
      cases hm
      rwa [List.append_nil]
    · rintro ⟨b, e, rfl, hb, he⟩
      have hread := reads_of_denotes hf he rfl (follows_nil _)
      have hspace := hb.trimStart_append (avoids_isSpace_of_head he.head [])
      rw [List.append_nil] at hread hspace
      refine ⟨.nothing, [], gives_arithmetic.2 ?_, gives_eof.2 ⟨rfl, rfl, rfl⟩⟩
      rw [hspace]
      exact (gives_forward hf).2 hread
  · exact hsound (gives_arithmetic.1 (endsIn_iff.1 (EndsIn.of_parse h (by simp))))

end Parselet.Arithmetic
