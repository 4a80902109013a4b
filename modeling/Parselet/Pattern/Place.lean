import Parselet.Pattern.Matcher

/-!
A search moves within one text. Whatever a node does, what has to match after it is started at a
place of the text that the node was started in, and its result is the result of the node.
-/

namespace Parselet.Pattern

variable {p q : Place} {next : Rest} {step : Rest → Rest}

/-- The whole text that is searched. -/
def Place.text (p : Place) : Text := p.before.reverse ++ p.after

@[simp] theorem Place.text_start (t : Text) : (Place.start t).text = t := rfl

theorem Place.text_forward {c : CodePoint} (h : p.forward? = some (c, q)) : q.text = p.text := by
  unfold forward? at h
  split at h
  · cases h
  · next d rest hafter =>
    cases h
    rw [text, text, hafter, List.reverse_cons, List.append_assoc]
    rfl

theorem Place.text_after {flags : Flags} {t : Text} (h : p.after? flags t = some q) :
    q.text = p.text := by
  induction t generalizing p with
  | nil =>
    cases h
    rfl
  | cons x t ih =>
    unfold after? at h
    split at h
    · cases h
    · next c p' hforward =>
      by_cases hsame : (if flags.ignoreCase then flags.fold c = flags.fold x else c = x)
      · simp only [hsame, if_true] at h
        rw [ih h, text_forward hforward]
      · simp only [hsame, if_false] at h
        cases h

/-- What the step finds is found by `next`, from a place in the same text. -/
def Carries (step : Rest → Rest) : Prop :=
  ∀ ⦃next : Rest⦄ ⦃p q : Place⦄, step next p = some q → ∃ p', p'.text = p.text ∧ next p' = some q

theorem Carries.text (h : Carries step) (hq : step some p = some q) : q.text = p.text := by
  obtain ⟨p', htext, hp'⟩ := h hq
  cases hp'
  exact htext

theorem Carries.times (h : Carries step) (count : Nat) :
    Carries fun next => Rest.times step next count := by
  induction count with
  | zero => exact fun _ _ _ hq => ⟨_, rfl, hq⟩
  | succ count ih =>
    intro next p q hq
    obtain ⟨p', htext, hp'⟩ := h hq
    obtain ⟨p'', htext', hp''⟩ := ih hp'
    exact ⟨p'', htext'.trans htext, hp''⟩

theorem Carries.greedy (h : Carries step) (fuel : Nat) (most last : Option Nat) :
    Carries fun next => Rest.greedy step next fuel most last := by
  induction fuel generalizing most last with
  | zero => exact fun _ _ _ hq => ⟨_, rfl, hq⟩
  | succ fuel ih =>
    intro next p q hq
    simp only [Rest.greedy] at hq
    split at hq
    · exact ⟨p, rfl, hq⟩
    · split at hq
      · next q' hstep =>
        cases hq
        obtain ⟨p', htext, hp'⟩ := h hstep
        obtain ⟨p'', htext', hp''⟩ := ih _ _ hp'
        exact ⟨p'', htext'.trans htext, hp''⟩
      · exact ⟨p, rfl, hq⟩

theorem Carries.lazy (h : Carries step) (fuel : Nat) (most last : Option Nat) :
    Carries fun next => Rest.lazy step next fuel most last := by
  induction fuel generalizing most last with
  | zero => exact fun _ _ _ hq => ⟨_, rfl, hq⟩
  | succ fuel ih =>
    intro next p q hq
    simp only [Rest.lazy] at hq
    split at hq
    · next q' hnext =>
      cases hq
      exact ⟨p, rfl, hnext⟩
    · split at hq
      · cases hq
      · obtain ⟨p', htext, hp'⟩ := h hq
        obtain ⟨p'', htext', hp''⟩ := ih _ _ hp'
        exact ⟨p'', htext'.trans htext, hp''⟩

theorem Carries.text_exhaust (h : Carries step) (fuel : Nat) (most : Option Nat) (p : Place) :
    (Rest.exhaust step fuel most p).text = p.text := by
  induction fuel generalizing most p with
  | zero => rfl
  | succ fuel ih =>
    simp only [Rest.exhaust]
    split
    · rfl
    · split
      · rfl
      · next q hq =>
        split
        · exact h.text hq
        · rw [ih, h.text hq]

/-- By induction on the node; in a repetition every iteration is a run of its body. -/
theorem Node.carries (flags : Flags) (n : Node) : Carries (n.run flags) := by
  induction n generalizing flags with
  | empty => exact fun _ _ _ hq => ⟨_, rfl, hq⟩
  | char test =>
    intro next p q hq
    simp only [run] at hq
    split at hq
    · cases hq
    · next c p' hforward =>
      split at hq
      · exact ⟨p', Place.text_forward hforward, hq⟩
      · cases hq
  | anchor a =>
    intro next p q hq
    simp only [run] at hq
    split at hq
    · exact ⟨p, rfl, hq⟩
    · cases hq
  | seq first second ihfirst ihsecond =>
    intro next p q hq
    obtain ⟨p', htext, hp'⟩ := ihfirst flags hq
    obtain ⟨p'', htext', hp''⟩ := ihsecond flags hp'
    exact ⟨p'', htext'.trans htext, hp''⟩
  | alt first second ihfirst ihsecond =>
    intro next p q hq
    simp only [run] at hq
    split at hq
    · next q' hfirst =>
      cases hq
      exact ihfirst flags hfirst
    · exact ihsecond flags hq
  | capture group body ih =>
    intro next p q hq
    obtain ⟨p', htext, hp'⟩ := ih flags hq
    exact ⟨p'.close group p, htext, hp'⟩
  | repeated greed least most body ih =>
    intro next p q hq
    -- the least number of iterations, and then the optional ones
    cases greed with
    | greedy =>
      obtain ⟨p', htext, hp'⟩ := (ih flags).times least hq
      obtain ⟨p'', htext', hp''⟩ := (ih flags).greedy _ _ _ hp'
      exact ⟨p'', htext'.trans htext, hp''⟩
    | lazy =>
      obtain ⟨p', htext, hp'⟩ := (ih flags).times least hq
      obtain ⟨p'', htext', hp''⟩ := (ih flags).lazy _ _ _ hp'
      exact ⟨p'', htext'.trans htext, hp''⟩
    | possessive =>
      simp only [run] at hq
      split at hq
      · cases hq
      · next p' htimes =>
        exact ⟨_, ((ih flags).text_exhaust _ _ p').trans (((ih flags).times least).text htimes), hq⟩
  | reference group =>
    intro next p q hq
    simp only [run] at hq
    split at hq
    · cases hq
    · split at hq
      · cases hq
      · next p' hafter => exact ⟨p', Place.text_after hafter, hq⟩
  | conditional group yes no ihyes ihno =>
    intro next p q hq
    simp only [run] at hq
    split at hq
    · exact ihyes flags hq
    · exact ihno flags hq
  | flagged on off body ih => exact ih (flags.inside on off)
  | lookAhead negated body ih =>
    intro next p q hq
    simp only [run] at hq
    split at hq <;> split at hq
    · exact ⟨p, rfl, hq⟩
    · cases hq
    · cases hq
    · refine ⟨_, ?_, hq⟩
      rfl
  | lookBehind negated width body ih =>
    -- the place further back is given up; only its groups are kept
    intro next p q hq
    simp only [run] at hq
    split at hq <;> split at hq
    · exact ⟨p, rfl, hq⟩
    · cases hq
    · cases hq
    · refine ⟨_, ?_, hq⟩
      rfl
  | atomic body ih =>
    intro next p q hq
    simp only [run] at hq
    split at hq
    · cases hq
    · next p' hbody => exact ⟨p', (ih flags).text hbody, hq⟩

/-- A match and what follows it make up the text. -/
theorem Node.append_of_match {flags : Flags} {n : Node} {t found rest : Text}
    (h : n.match? flags t = some (found, rest)) : found ++ rest = t := by
  unfold match? at h
  split at h
  · cases h
  · next p hrun =>
    cases h
    exact ((n.carries flags).text hrun).trans (Place.text_start t)

end Parselet.Pattern
