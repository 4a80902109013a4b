import Parselet.Proofs.Token.Lexeme

/-!
Names: a character that may begin one, and the longest run of characters that may go on with it.
-/

namespace Parselet

namespace CodePoint

def startsName (c : CodePoint) : Bool := c.isLetter || c = ofChar '_'

def continuesName (c : CodePoint) : Bool := (c.isLetter || c.isDigit) || c = ofChar '_'

theorem continuesName_of_startsName {c : CodePoint} (h : c.startsName = true) :
    c.continuesName = true := by
  rw [startsName, Bool.or_eq_true] at h
  rw [continuesName, Bool.or_eq_true, Bool.or_eq_true]
  exact h.imp_left .inl

theorem letterRanges_apart_spaceRanges :
    Ranges.apart letterRanges.ranges spaceRanges.ranges = true := by
  decide +kernel

/-- No white space is part of a name. -/
theorem not_isSpace_of_continuesName {c : CodePoint} (h : c.continuesName = true) :
    c.isSpace = false := by
  rw [continuesName, Bool.or_eq_true, Bool.or_eq_true, decide_eq_true_eq] at h
  rcases h with (hletter | hdigit) | rfl
  · exact Ranges.not_contains_of_apart letterRanges_apart_spaceRanges hletter
  · exact not_isSpace_of_isDigit hdigit
  · decide

end CodePoint

namespace Parser

open CodePoint Text

variable {store : Store} {limit : Limit} {src rest m : Text} {v : Value} {d : CodePoint}
  {accepts : CodePoint → Bool}

/-- A class of characters and one more. -/
theorem gives_satisfy_orElse_character :
    (run store limit ((satisfy accepts m).orElse (character d))).Gives src (.success v rest) ↔
      ∃ c, src = c :: rest ∧ (accepts c || c = d) = true ∧ v = .text [c] := by
  rw [gives_orElse, gives_satisfy, fails_satisfy, gives_character]
  simp only [Bool.or_eq_true, decide_eq_true_eq]
  constructor
  · rintro (⟨c, rfl, hc, rfl⟩ | ⟨-, rfl, rfl⟩)
    · exact ⟨c, rfl, .inl hc, rfl⟩
    · exact ⟨d, rfl, .inr rfl, rfl⟩
  · rintro ⟨c, rfl, hc, rfl⟩
    by_cases haccepts : accepts c = true
    · exact .inl ⟨c, rfl, haccepts, rfl⟩
    · obtain rfl := hc.resolve_left haccepts
      refine .inr ⟨fun e t h => ?_, rfl, rfl⟩
      cases h
      exact Bool.eq_false_of_not_eq_true haccepts

theorem fails_satisfy_orElse_character :
    (run store limit ((satisfy accepts m).orElse (character d))).Fails src ↔
      ∀ c t, src = c :: t → (accepts c || c = d) = false := by
  rw [fails_orElse, fails_satisfy, fails_character]
  simp only [Bool.or_eq_false_iff, decide_eq_false_iff_not]
  constructor
  · rintro ⟨haccepts, hd⟩ c t rfl
    exact ⟨haccepts c t rfl, fun h => hd t (by rw [h])⟩
  · intro h
    exact ⟨fun c t hsrc => (h c t hsrc).1, fun t hsrc => (h d t hsrc).2 rfl⟩

theorem gives_identifier :
    (run store limit identifier).Gives src (.success v rest) ↔
      ∃ c t, src = c :: t ∧ c.startsName = true ∧
        v = .text (c :: t.takeWhile continuesName) ∧ rest = t.dropWhile continuesName := by
  have hothers (t : Text) : (run store limit (alphanumeric.orElse (character '_'))).Repeats t
      ((t.takeWhile continuesName).map fun c => .text [c]) (t.dropWhile continuesName) :=
    Step.repeats_class gives_satisfy_orElse_character fails_satisfy_orElse_character t
  have hname (c : CodePoint) (t : Text) :
      nameOf (.tuple [.text [c], .list (t.map fun c => .text [c])]) = .ok (.text (c :: t)) :=
    nameOf_pair (Value.joined_of_characters rfl)
  rw [identifier, gives_named, gives_map]
  simp only [gives_seq_cons, gives_seq_nil, gives_many]
  constructor
  · rintro ⟨w, ⟨w₁, mid, ws, hfirst, ⟨w₂, mid', ws', ⟨vs, rfl, hvs⟩, ⟨hws', rfl⟩, hws⟩, rfl⟩, hv⟩
    obtain ⟨c, rfl, hc, rfl⟩ := gives_satisfy_orElse_character.1 hfirst
    obtain ⟨rfl, rfl⟩ := hvs.unique (hothers mid)
    cases hws'
    cases hws
    rw [hname] at hv
    cases hv
    exact ⟨c, mid, rfl, hc, rfl, rfl⟩
  · rintro ⟨c, t, rfl, hc, rfl, rfl⟩
    exact ⟨_, ⟨_, t, _, gives_satisfy_orElse_character.2 ⟨c, rfl, hc, rfl⟩,
      ⟨_, _, _, ⟨_, rfl, hothers t⟩, ⟨rfl, rfl⟩, rfl⟩, rfl⟩, hname _ _⟩

theorem fails_identifier (h : Avoids startsName src) : (run store limit identifier).Fails src := by
  rw [identifier, fails_named, fails_map, fails_seq_cons]
  refine .inl (fails_satisfy_orElse_character.2 fun c t hsrc => ?_)
  rw [hsrc] at h
  exact avoids_cons.1 h

end Parser

end Parselet
