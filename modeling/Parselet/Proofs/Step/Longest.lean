import Parselet.Proofs.Step.Spells

/-!
Steps that read the longest word of a language at the beginning of the input, and fail where there
is none. A sequence commits to the longest word of its first part. Nothing is lost by that if what a
shorter word leaves begins with a character that no word of the second part begins with.
-/

namespace Parselet

namespace Text

/-- `w` is the longest word of `A` at the beginning of `w ++ rest`, and what a shorter one leaves
begins with a character of `C`. -/
structure Longest (A : Text → Prop) (C : CodePoint → Prop) (w rest : Text) : Prop where
  word : A w
  shorter : ∀ u k, w ++ rest = u ++ k → A u → u = w ∨ u.length < w.length ∧ ∃ c ∈ k.head?, C c

variable {A B : Text → Prop} {C D : CodePoint → Prop} {w u rest : Text}

theorem Longest.length_le (h : Longest A C w rest) (hu : u <+: w ++ rest) (hA : A u) :
    u.length ≤ w.length := by
  obtain ⟨k, hk⟩ := hu
  rcases h.shorter u k hk.symm hA with rfl | ⟨hlt, -⟩
  · exact Nat.le_refl _
  · exact Nat.le_of_lt hlt

/-- A longest run of a class; a shorter one leaves a character of it. -/
theorem longest_run {accepts : CodePoint → Bool} (hne : w ≠ []) (hw : ∀ c ∈ w, accepts c = true)
    (hrest : ∀ c ∈ rest.head?, accepts c = false) :
    Longest (fun t => t ≠ [] ∧ ∀ c ∈ t, accepts c = true) (fun c => accepts c = true) w rest where
  word := ⟨hne, hw⟩
  shorter := by
    rintro u k hsrc ⟨-, hu⟩
    rcases List.append_eq_append_iff.1 hsrc with ⟨x, rfl, rfl⟩ | ⟨x, rfl, rfl⟩
    · -- a longer run would go on with characters of the class
      cases x with
      | nil => exact .inl (List.append_nil w)
      | cons c x =>
        have hc := hu c (by simp)
        rw [hrest c rfl] at hc
        cases hc
    · cases x with
      | nil => exact .inl (List.append_nil u).symm
      | cons c x => exact .inr ⟨by simp, c, rfl, hw c (by simp)⟩

/-- A word of `A`, followed by a word of `B`. -/
def Then (A B : Text → Prop) (t : Text) : Prop := ∃ a b, A a ∧ B b ∧ t = a ++ b

/-- A word of `A`, or nothing. -/
def Perhaps (A : Text → Prop) (t : Text) : Prop := t = [] ∨ A t

/-- Every word of `A` begins with a character of `F`, so none is empty. -/
def BeginsIn (F : CodePoint → Prop) (A : Text → Prop) : Prop := ∀ t, A t → ∃ c ∈ t.head?, F c

/-- No word of `A` begins with a character of `C`. -/
def NeverBeginsIn (C : CodePoint → Prop) (A : Text → Prop) : Prop := ∀ t, A t → ∀ c ∈ t.head?, ¬ C c

theorem BeginsIn.never {F : CodePoint → Prop} (h : BeginsIn F A) (hF : ∀ c, F c → ¬ C c) :
    NeverBeginsIn C A := by
  intro t ht c hc
  obtain ⟨d, hd, hFd⟩ := h t ht
  cases Option.mem_unique hc hd
  exact hF c hFd

theorem NeverBeginsIn.perhaps (h : NeverBeginsIn C A) : NeverBeginsIn C (Perhaps A) := by
  rintro t (rfl | ht)
  · exact fun c hc => by cases hc
  · exact h t ht

theorem BeginsIn.then {F : CodePoint → Prop} (h : BeginsIn F A) (B : Text → Prop) :
    BeginsIn F (Then A B) := by
  rintro t ⟨a, b, ha, -, rfl⟩
  obtain ⟨c, hc, hF⟩ := h a ha
  exact ⟨c, List.mem_head?_append_of_mem_head? hc, hF⟩

/-- If what is left begins with a character of `C`, a word of `B` at its beginning is empty. -/
theorem NeverBeginsIn.eq_nil (h : NeverBeginsIn C B) {b k : Text} (hb : B b)
    (hC : ∃ c ∈ (b ++ k).head?, C c) : b = [] := by
  obtain ⟨c, hc, hC⟩ := hC
  cases b with
  | nil => rfl
  | cons d b =>
    cases hc
    exact absurd hC (h _ hb c rfl)

theorem Longest.then (hA : Longest A C w (u ++ rest)) (hB : Longest B D u rest)
    (hsep : NeverBeginsIn C B) :
    Longest (Then A B) (fun c => C c ∨ D c) (w ++ u) rest where
  word := ⟨w, u, hA.word, hB.word, rfl⟩
  shorter := by
    rintro _ k hsrc ⟨a, b, ha, hb, rfl⟩
    rw [List.append_assoc, List.append_assoc] at hsrc
    rcases hA.shorter a (b ++ k) hsrc ha with rfl | ⟨hlt, hC⟩
    · rcases hB.shorter b k (List.append_cancel_left hsrc) hb with rfl | ⟨hlt, c, hc, hD⟩
      · exact .inl rfl
      · exact .inr ⟨by simpa using hlt, c, hc, .inr hD⟩
    · obtain rfl := hsep.eq_nil hb hC
      obtain ⟨c, hc, hC⟩ := hC
      refine .inr ⟨?_, c, hc, .inl hC⟩
      simp only [List.append_nil, List.length_append]
      omega

end Text

open Text

namespace Step

variable {p q : Step} {ps : List Step} {S R : Spelling} {A B : Text → Prop}
  {C D F : CodePoint → Prop} {src : Text}

/-- How a step that reads longest words ends: it reads one, or there is none. -/
inductive LongestOn (p : Step) (S : Spelling) (A : Text → Prop) (C : CodePoint → Prop) :
    Text → Prop
  | reads {w rest : Text} {v : Value} : p.Gives (w ++ rest) (.success v rest) → S v w →
      Longest A C w rest → LongestOn p S A C (w ++ rest)
  | fails {src : Text} : p.Fails src → (∀ u k, src = u ++ k → ¬ A u) → LongestOn p S A C src

/-- The step reads the longest word of `A` wherever the input begins with one, and its value spells
that word. What a shorter word would leave begins with a character of `C`. -/
def ReadsLongest (p : Step) (S : Spelling) (A : Text → Prop) (C : CodePoint → Prop) : Prop :=
  ∀ src, LongestOn p S A C src

/-- A single character of a class. -/
theorem readsLongest_class {accepts : CodePoint → Bool}
    (hgives : ∀ {src v rest},
      p.Gives src (.success v rest) ↔ ∃ c, src = c :: rest ∧ accepts c = true ∧ v = .text [c])
    (hfails : ∀ {src}, p.Fails src ↔ ∀ c t, src = c :: t → accepts c = false)
    (hS : ∀ c, S (.text [c]) [c]) :
    p.ReadsLongest S (fun t => ∃ c, accepts c = true ∧ t = [c]) (fun _ => False) := by
  intro src
  by_cases hfirst : ∃ c rest, src = [c] ++ rest ∧ accepts c = true
  · obtain ⟨c, rest, rfl, hc⟩ := hfirst
    refine .reads (hgives.2 ⟨c, rfl, hc, rfl⟩) (hS c) ⟨⟨c, hc, rfl⟩, ?_⟩
    rintro _ k hsrc ⟨d, -, rfl⟩
    exact .inl (List.append_inj_left hsrc rfl).symm
  · refine .fails (hfails.2 fun c t hsrc => ?_) ?_
    · exact Bool.eq_false_iff.2 fun hc => hfirst ⟨c, t, hsrc, hc⟩
    · rintro _ k hsrc ⟨c, hc, rfl⟩
      exact hfirst ⟨c, k, hsrc, hc⟩

/-- The same language in other words, and a greater class. -/
theorem ReadsLongest.congr (hp : p.ReadsLongest S A C) (hA : ∀ t, A t ↔ B t)
    (hC : ∀ c, C c → D c) : p.ReadsLongest S B D := by
  intro src
  cases hp src with
  | reads hgives hS hw =>
    refine .reads hgives hS ⟨(hA _).1 hw.word, fun u k hsrc hu => ?_⟩
    refine (hw.shorter u k hsrc ((hA u).2 hu)).imp_right ?_
    exact fun ⟨hlt, c, hc, hCc⟩ => ⟨hlt, c, hc, hC c hCc⟩
  | fails hfails hnone => exact .fails hfails fun u k hsrc hu => hnone u k hsrc ((hA u).2 hu)

/-- The values are turned into others that spell the same words. -/
theorem ReadsLongest.map {f : Value → Except Fault Value} (hp : p.ReadsLongest S A C)
    (hf : ∀ v t, S v t → ∃ w, f v = .ok w ∧ R w t) : (map p f).ReadsLongest R A C := by
  intro src
  cases hp src with
  | reads hgives hS hw =>
    obtain ⟨w, hw', hR⟩ := hf _ _ hS
    exact .reads (gives_map_success.2 ⟨_, hgives, hw'⟩) hR hw
  | fails hfails hnone => exact .fails (fails_map.2 hfails) hnone

/-- Nothing is a word then, and a shorter one than any other. -/
theorem ReadsLongest.optional (hp : p.ReadsLongest S A C) (hF : BeginsIn F A)
    (habsent : S .absent []) :
    (optional p).ReadsLongest S (Perhaps A) fun c => C c ∨ F c := by
  intro src
  cases hp src with
  | @reads w rest v hgives hS hw =>
    refine .reads (gives_optional_success.2 (.inl hgives)) hS ⟨.inr hw.word, ?_⟩
    rintro u k hsrc (rfl | hu)
    · obtain ⟨c, hc, hFc⟩ := hF w hw.word
      have hpos : 0 < w.length := List.length_pos_of_mem (List.mem_of_head? hc)
      rw [List.nil_append] at hsrc
      subst hsrc
      exact .inr ⟨hpos, c, List.mem_head?_append_of_mem_head? hc, .inr hFc⟩
    · exact (hw.shorter u k hsrc hu).imp_right fun ⟨hlt, c, hc, hC⟩ => ⟨hlt, c, hc, .inl hC⟩
  | fails hfails hnone =>
    refine .reads (w := []) (gives_optional_success.2 (.inr ⟨hfails, rfl, rfl⟩)) habsent
      ⟨.inl rfl, ?_⟩
    rintro u k hsrc (rfl | hu)
    · exact .inl rfl
    · exact absurd hu (hnone u k hsrc)

/-- The first character of the input tells which of the two languages its words belong to. -/
theorem ReadsLongest.orElse (hp : p.ReadsLongest S A C) (hq : q.ReadsLongest S B D)
    (hA : BeginsIn F A) (hB : BeginsIn (fun c => ¬ F c) B) :
    (orElse p q).ReadsLongest S (fun t => A t ∨ B t) fun c => C c ∨ D c := by
  intro src
  cases hp src with
  | @reads w rest v hgives hS hw =>
    refine .reads (gives_orElse_success.2 (.inl hgives)) hS ⟨.inl hw.word, ?_⟩
    rintro u k hsrc (hu | hu)
    · exact (hw.shorter u k hsrc hu).imp_right fun ⟨hlt, c, hc, hC⟩ => ⟨hlt, c, hc, .inl hC⟩
    · obtain ⟨c, hc, hFc⟩ := hA w hw.word
      obtain ⟨d, hd, hFd⟩ := hB u hu
      have hc' : c ∈ (w ++ rest).head? := List.mem_head?_append_of_mem_head? hc
      have hd' : d ∈ (u ++ k).head? := List.mem_head?_append_of_mem_head? hd
      rw [hsrc] at hc'
      cases Option.mem_unique hc' hd'
      exact absurd hFc hFd
  | fails hfails hnone =>
    cases hq src with
    | @reads w rest v hgives hS hw =>
      refine .reads (gives_orElse_success.2 (.inr ⟨hfails, hgives⟩)) hS ⟨.inr hw.word, ?_⟩
      rintro u k hsrc (hu | hu)
      · exact absurd hu (hnone u k hsrc)
      · exact (hw.shorter u k hsrc hu).imp_right fun ⟨hlt, c, hc, hD⟩ => ⟨hlt, c, hc, .inr hD⟩
    | fails hfails' hnone' =>
      refine .fails (fails_orElse.2 ⟨hfails, hfails'⟩) ?_
      rintro u k hsrc (hu | hu)
      · exact hnone u k hsrc hu
      · exact hnone' u k hsrc hu

theorem readsLongest_seq_nil (h : S (.tuple []) []) :
    (seq []).ReadsLongest S (· = []) fun _ => False := by
  intro src
  refine .reads (w := []) (gives_seq_nil.2 ⟨rfl, rfl⟩) h ⟨rfl, ?_⟩
  rintro u k - rfl
  exact .inl rfl

theorem ReadsLongest.seq_cons (hp : p.ReadsLongest S A C) (hps : (seq ps).ReadsLongest R B D)
    (hsep : NeverBeginsIn C B) {S' : Spelling}
    (h : ∀ v t vs u, S v t → R (.tuple vs) u → S' (.tuple (v :: vs)) (t ++ u)) :
    (seq (p :: ps)).ReadsLongest S' (Then A B) fun c => C c ∨ D c := by
  intro src
  cases hp src with
  | @reads w mid v hgives hS hw =>
    cases hps mid with
    | @reads u rest vs hgives' hR hu =>
      obtain ⟨ws, rfl, -⟩ := gives_seq_success.1 hgives'
      rw [← List.append_assoc]
      refine .reads ?_ (h _ _ _ _ hS hR) (hw.then hu hsep)
      rw [List.append_assoc]
      exact gives_seq_cons.2 ⟨_, _, _, hgives, hgives', rfl⟩
    | fails hfails hnone =>
      refine .fails (fails_seq_cons.2 (.inr ⟨_, _, hgives, hfails⟩)) ?_
      rintro _ k hsrc ⟨a, b, ha, hb, rfl⟩
      rw [List.append_assoc] at hsrc
      -- the second part has no word here, so it has not even the empty one
      rcases hw.shorter a (b ++ k) hsrc ha with rfl | ⟨-, hC⟩
      · exact hnone b k (List.append_cancel_left hsrc) hb
      · obtain rfl := hsep.eq_nil hb hC
        exact hnone [] _ rfl hb
  | fails hfails hnone =>
    refine .fails (fails_seq_cons.2 (.inl hfails)) ?_
    rintro _ k hsrc ⟨a, b, ha, -, rfl⟩
    exact hnone a (b ++ k) (by rw [hsrc, List.append_assoc]) ha

end Step

end Parselet
