import Parselet.Proofs.Text.Span

/-!
The tokens of a text. White space separates them and is nothing but a separator, so texts with the
same tokens go on in the same way once their leading white space is gone.
-/

namespace Parselet.Text

variable {a b k t ds : Text} {c : CodePoint}

/-- The longest runs of decimal digits, and all other characters but white space on their own. -/
def tokens : Text → List Text
  | [] => []
  | c :: t =>
    if c.isSpace then tokens t
    else if c.isDigit then
      (c :: t.takeWhile CodePoint.isDigit) :: tokens (t.dropWhile CodePoint.isDigit)
    else [c] :: tokens t
termination_by t => t.length
decreasing_by
  · simp
  · exact Nat.lt_succ_of_le (List.dropWhile_suffix _).length_le
  · simp

@[simp] theorem tokens_nil : tokens [] = [] := by rw [tokens]

theorem tokens_space (hc : c.isSpace = true) : tokens (c :: t) = tokens t := by
  rw [tokens, if_pos hc]

theorem tokens_single (hspace : c.isSpace = false) (hdigit : c.isDigit = false) :
    tokens (c :: t) = [c] :: tokens t := by
  rw [tokens, hspace, hdigit]
  rfl

theorem tokens_digits (hds : IsDigits ds) (hk : Avoids CodePoint.isDigit k) :
    tokens (ds ++ k) = ds :: tokens k := by
  obtain ⟨hne, hall⟩ := hds
  cases ds with
  | nil => exact absurd rfl hne
  | cons d ds =>
    obtain ⟨hd, hds⟩ := List.forall_mem_cons.1 hall
    rw [List.cons_append, tokens, CodePoint.not_isSpace_of_isDigit hd, hd,
      takeWhile_append_of_avoids hds hk, dropWhile_append_of_avoids hds hk]
    rfl

/-- Leading white space does not count. -/
@[simp] theorem tokens_trimStart (t : Text) : tokens t.trimStart = tokens t := by
  induction t with
  | nil => rfl
  | cons c t ih =>
    by_cases hc : c.isSpace = true
    · rw [tokens_space hc, trimStart, List.dropWhile_cons_of_pos hc, ← ih, trimStart]
    · rw [trimStart, List.dropWhile_cons_of_neg hc]

def SameTokens (a b : Text) : Prop := tokens a = tokens b

/-- The same tokens, and no leading white space. -/
structure Aligned (a b : Text) : Prop where
  same : SameTokens a b
  left : Avoids CodePoint.isSpace a
  right : Avoids CodePoint.isSpace b

theorem aligned_trimStart (h : SameTokens a b) : Aligned a.trimStart b.trimStart where
  same := ((tokens_trimStart a).trans h).trans (tokens_trimStart b).symm
  left := avoids_dropWhile _ _
  right := avoids_dropWhile _ _

/-- How a text without leading white space begins: with nothing at all, with a longest run of digits,
or with another character. -/
inductive Begins : Text → List Text → Prop
  | empty : Begins [] []
  | digits {ds k : Text} : IsDigits ds → Avoids CodePoint.isDigit k →
      Begins (ds ++ k) (ds :: tokens k)
  | single {c : CodePoint} {k : Text} : c.isSpace = false → c.isDigit = false →
      Begins (c :: k) ([c] :: tokens k)

theorem Begins.tokens_eq {ts : List Text} (h : Begins t ts) : tokens t = ts := by
  cases h with
  | empty => exact tokens_nil
  | digits hds hk => exact tokens_digits hds hk
  | single hspace hdigit => exact tokens_single hspace hdigit

theorem exists_begins (h : Avoids CodePoint.isSpace t) : ∃ ts, Begins t ts := by
  cases t with
  | nil => exact ⟨_, .empty⟩
  | cons c t =>
    cases hc : c.isDigit with
    | false => exact ⟨_, .single (avoids_cons.1 h) hc⟩
    | true =>
      have hds : IsDigits (c :: t.takeWhile CodePoint.isDigit) :=
        ⟨nofun, List.forall_mem_cons.2 ⟨hc, fun d hd => List.mem_takeWhile_imp hd⟩⟩
      have h := Begins.digits hds (avoids_dropWhile CodePoint.isDigit t)
      rw [List.cons_append, List.takeWhile_append_dropWhile] at h
      exact ⟨_, h⟩

/-- How two texts with the same tokens begin, after their white space. -/
inductive BeginAlike : Text → Text → Prop
  | empty : BeginAlike [] []
  | digits {ds k k' : Text} : IsDigits ds → Avoids CodePoint.isDigit k →
      Avoids CodePoint.isDigit k' → SameTokens k k' → BeginAlike (ds ++ k) (ds ++ k')
  | single {c : CodePoint} {k k' : Text} : c.isSpace = false → c.isDigit = false →
      SameTokens k k' → BeginAlike (c :: k) (c :: k')

theorem Aligned.beginAlike (h : Aligned a b) : BeginAlike a b := by
  obtain ⟨ts, ha⟩ := exists_begins h.left
  obtain ⟨ts', hb⟩ := exists_begins h.right
  have hts : ts = ts' := by rw [← ha.tokens_eq, ← hb.tokens_eq, h.same]
  -- a run of digits is no single other character
  have hne {ds : Text} {c : CodePoint} (hds : IsDigits ds) (hc : c.isDigit = false) : ds ≠ [c] := by
    rintro rfl
    exact Bool.false_ne_true (hc.symm.trans (hds.2 c (List.mem_singleton_self c)))
  cases ha with
  | empty =>
    cases hb with
    | empty => exact .empty
    | _ => cases hts
  | digits hds hk =>
    cases hb with
    | empty => cases hts
    | digits hds' hk' =>
      obtain ⟨rfl, htokens⟩ := List.cons.inj hts
      exact .digits hds hk hk' htokens
    | single _ hdigit => exact absurd (List.cons.inj hts).1 (hne hds hdigit)
  | single hspace hdigit =>
    cases hb with
    | empty => cases hts
    | digits hds' _ => exact absurd (List.cons.inj hts).1.symm (hne hds' hdigit)
    | single =>
      obtain ⟨hc, htokens⟩ := List.cons.inj hts
      cases hc
      exact .single hspace hdigit htokens

end Parselet.Text
