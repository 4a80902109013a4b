import Mathlib.Data.List.Basic
import Parselet.Parser.Basic

/-!
What allocating and defining forwards does to the parsers that forwards stand for.
-/

namespace Parselet.Store

variable {s s' : Store} {f : Forward} {p : Parser} {name : Text}

theorem target?_eq_some :
    s.target? f = some p ↔ s.targets[f.id]? = some (some p) := by
  rw [target?, Option.join_eq_some_iff]

theorem lt_length_of_target? (h : s.target? f = some p) : f.id < s.targets.length :=
  (List.getElem?_eq_some_iff.1 (target?_eq_some.1 h)).1

theorem targets_allocate (s : Store) (name : Text) :
    (s.allocate name).2.targets = s.targets ++ [none] := rfl

/-- A new forward stands for nothing yet. -/
theorem target?_allocate (s : Store) (name : Text) :
    (s.allocate name).2.target? (s.allocate name).1 = none := by
  simp [allocate, target?]

theorem targets_define (h : s.define f p = .ok s') :
    s'.targets = s.targets.set f.id (some p) := by
  unfold define at h
  split at h
  · cases h
  · cases h
    rfl

/-- A forward that stands for nothing yet can be defined. -/
theorem define_eq_ok (h : s.target? f = none) :
    s.define f p = .ok ⟨s.targets.set f.id (some p)⟩ := by
  simp only [define, h]

theorem target?_define (h : s.define f p = .ok s') (hf : f.id < s.targets.length) :
    s'.target? f = some p := by
  rw [target?_eq_some, targets_define h, List.getElem?_set_self hf]

/-- A new forward can be made to stand for a parser. -/
theorem exists_define_allocate (s : Store) (name : Text) (p : Parser) :
    ∃ s', (s.allocate name).2.define (s.allocate name).1 p = .ok s' ∧
      s'.target? (s.allocate name).1 = some p := by
  have hdefine := define_eq_ok (p := p) (target?_allocate s name)
  exact ⟨_, hdefine, target?_define hdefine (by simp [allocate])⟩

end Parselet.Store
