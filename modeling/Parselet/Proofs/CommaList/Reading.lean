import Parselet.Proofs.CommaList.Format
import Parselet.Proofs.QuotedString.Reading
import Parselet.Proofs.Token.Integer

/-!
Renderings of lists are read back. The white space that a slot ends in is skipped with its item, the
one it begins with along with the bracket or comma before it, so every iteration takes one slot.
-/

namespace Parselet.CommaList

open Parselet.Parser Parselet.Text

variable {store : Store} {limit : Limit} {p : Parser} {slots : List Slot} {t k rest : Text}
  {v : Value} {s : Slot}

/-! ## What follows an item -/

theorem follows_of_blank (ht : IsBlank t) (hk : Follows k) : Follows (t ++ k) := by
  cases t with
  | nil => exact hk
  | cons c t => exact ⟨c, t ++ k, rfl, .inr (.inr (ht c (List.mem_cons_self ..)))⟩

/-- Neither white space nor the separators of a list belong to the class, so an item made of its
characters ends where it ends. -/
theorem Follows.avoids {accepts : CodePoint → Bool} (hk : Follows k)
    (hspace : ∀ c, accepts c = true → c.isSpace = false)
    (hcomma : accepts (CodePoint.ofChar ',') = false)
    (hclosing : accepts (CodePoint.ofChar ']') = false) : Avoids accepts k := by
  obtain ⟨c, t, rfl, rfl | rfl | hc⟩ := hk
  · exact avoids_cons.2 hcomma
  · exact avoids_cons.2 hclosing
  · refine avoids_cons.2 (Bool.eq_false_iff.2 fun haccepts => ?_)
    rw [hspace c haccepts] at hc
    cases hc

theorem Follows.not_digit (hk : Follows k) : Avoids CodePoint.isDigit k :=
  hk.avoids (fun _ => CodePoint.not_isSpace_of_isDigit) (by decide) (by decide)

theorem Follows.not_name (hk : Follows k) : Avoids CodePoint.continuesName k :=
  hk.avoids (fun _ => CodePoint.not_isSpace_of_continuesName) (by decide) (by decide)

theorem Follows.not_hexDigit (hk : Follows k) : Avoids (fun c => decide c.IsHexDigit) k :=
  hk.avoids (fun _ h => CodePoint.not_isSpace_of_isHexDigit (of_decide_eq_true h)) (by decide)
    (by decide)

/-- What stands behind the first item, up to the end of the input. -/
def others (slots : List Slot) (rest : Text) : Text :=
  slots.flatMap (fun s => CodePoint.ofChar ',' :: s.render) ++ CodePoint.ofChar ']' :: rest

theorem others_nil (rest : Text) : others [] rest = CodePoint.ofChar ']' :: rest := rfl

theorem others_cons (s : Slot) (slots : List Slot) (rest : Text) :
    others (s :: slots) rest =
      CodePoint.ofChar ',' :: (s.before ++ (s.text ++ (s.after ++ others slots rest))) := by
  simp [others, Slot.render]

theorem follows_others (slots : List Slot) (rest : Text) : Follows (others slots rest) := by
  cases slots with
  | nil => exact ⟨_, _, others_nil rest, .inr (.inl rfl)⟩
  | cons s slots => exact ⟨_, _, others_cons s slots rest, .inl rfl⟩

theorem others_not_space (slots : List Slot) (rest : Text) :
    Avoids CodePoint.isSpace (others slots rest) := by
  cases slots with
  | nil => exact avoids_cons.2 (by decide)
  | cons s slots =>
    rw [others_cons]
    exact avoids_cons.2 (by decide)

theorem render_eq_cons (inside : Text) (slots : List Slot) :
    render inside slots = CodePoint.ofChar '[' ::
      (inside ++ join "," (slots.map Slot.render) ++ "]") := by
  simp [render, ofString]

theorem render_append_cons (inside : Text) (s : Slot) (slots : List Slot) (rest : Text) :
    render inside (s :: slots) ++ rest = CodePoint.ofChar '[' ::
      (inside ++ (s.before ++ (s.text ++ (s.after ++ others slots rest)))) := by
  simp [render, others, join_cons, Slot.render, ofString, List.flatMap_map]

theorem render_append_nil (inside rest : Text) :
    render inside [] ++ rest =
      CodePoint.ofChar '[' :: (inside ++ CodePoint.ofChar ']' :: rest) := by
  simp [render, join, ofString]

/-! ## The law of lists -/

/-- Behind the white space before an item, its lexeme takes the item and the white space after. -/
theorem IsItem.gives (hitem : IsItem store limit p s.text s.value) (hs : s.IsSpaced) {blank : Text}
    (hblank : IsBlank blank) (slots : List Slot) (rest : Text) :
    (run store limit (lexeme p)).Gives
      (blank ++ (s.text ++ (s.after ++ others slots rest))).trimStart
      (.success s.value (others slots rest)) := by
  obtain ⟨c, t, ht⟩ := List.exists_cons_of_ne_nil hitem.ne_nil
  have hspace : Avoids CodePoint.isSpace (s.text ++ (s.after ++ others slots rest)) := by
    have h := hitem.not_space
    rw [ht] at h ⊢
    exact avoids_cons.2 (avoids_cons.1 h)
  have h := endsIn_iff.1 (hitem.reads _ (follows_of_blank hs.after (follows_others slots rest)))
  rwa [hs.after.trimStart_append (others_not_space slots rest), ← hblank.trimStart_append hspace]
    at h

/-- The steps of an item that follows another one. -/
noncomputable def continued (store : Store) (limit : Limit) (p : Parser) : Step :=
  Step.flatMap (run store limit (symbol ",")) fun _ => .ok (run store limit (lexeme p))

/-- The loop takes one slot after another, and nothing of what stands behind them. -/
theorem repeats_others (hslots : ∀ s ∈ slots, s.IsSpaced ∧ IsItem store limit p s.text s.value) :
    (continued store limit p).Repeats (others slots rest) (slots.map Slot.value)
      (CodePoint.ofChar ']' :: rest) := by
  induction slots with
  | nil =>
    refine .fails (Step.fails_flatMap.2 (.inl (fails_symbol.2 ?_)))
    rintro ⟨t, h⟩
    exact absurd (List.cons.inj h).1 (by decide)
  | cons s slots ih =>
    obtain ⟨⟨hs, hitem⟩, hslots⟩ := List.forall_mem_cons.1 hslots
    rw [others_cons]
    refine .next (Step.gives_flatMap_success.2 ⟨_, _, _, gives_symbol.2 ⟨_, rfl, rfl, rfl⟩, rfl,
      hitem.gives hs hs.before slots rest⟩) ?_ (ih hslots)
    simp only [List.length_cons, List.length_append]
    omega

theorem gives_commaList :
    (run store limit (commaList p)).Gives t (.success v rest) ↔
      ∃ before after : Text, t.trimStart = CodePoint.ofChar '[' :: before ∧
        (run store limit ((lexeme p).sepBy (symbol ","))).Gives before.trimStart
          (.success v (CodePoint.ofChar ']' :: after)) ∧ rest = after.trimStart := by
  rw [commaList, gives_named, gives_andThen]
  simp only [gives_skipWhitespace, gives_between, gives_symbol]
  constructor
  · rintro ⟨-, -, ⟨-, rfl⟩, -, -, -, -, ⟨before, ht, -, rfl⟩, hitems, after, rfl, -, rfl⟩
    exact ⟨before, after, ht, hitems, rfl⟩
  · rintro ⟨before, after, ht, hitems, rfl⟩
    exact ⟨_, _, ⟨rfl, rfl⟩, _, _, _, _, ⟨before, ht, rfl, rfl⟩, hitems, after, rfl, rfl, rfl⟩

theorem fails_commaList (hspace : Avoids CodePoint.isSpace t)
    (h : CodePoint.ofChar '[' ∉ t.head?) : (run store limit (commaList p)).Fails t := by
  rw [commaList, fails_named, fails_andThen]
  refine .inr ⟨_, t, gives_skipWhitespace.2 ⟨rfl, hspace.dropWhile_eq_self.symm⟩, ?_⟩
  refine fails_between_of_opening (fails_symbol.2 ?_)
  rintro ⟨k, rfl⟩
  exact h rfl

/-- What stands between the brackets. -/
theorem gives_items (hslots : ∀ s ∈ slots, s.IsSpaced ∧ IsItem store limit p s.text s.value)
    (hempty : slots = [] → FailsAtClosing store limit p) {inside : Text} (hinside : IsBlank inside)
    (rest : Text) :
    ∃ before : Text, render inside slots ++ rest = CodePoint.ofChar '[' :: before ∧
      (run store limit ((lexeme p).sepBy (symbol ","))).Gives before.trimStart
        (.success (.list (slots.map Slot.value)) (CodePoint.ofChar ']' :: rest)) := by
  cases slots with
  | nil =>
    have htrim := hinside.trimStart_append (others_not_space [] rest)
    rw [others_nil] at htrim
    obtain ⟨m, u, hfails⟩ := hempty rfl rest
    refine ⟨_, render_append_nil inside rest, gives_sepBy.2 (.inl ⟨fails_lexeme.2 ?_, rfl, ?_⟩)⟩
    · rw [htrim]
      exact ⟨m, u, endsIn_iff.1 hfails⟩
    · exact htrim.symm
  | cons s slots =>
    obtain ⟨⟨hs, hitem⟩, hslots⟩ := List.forall_mem_cons.1 hslots
    refine ⟨_, render_append_cons inside s slots rest, gives_sepBy.2 (.inr ⟨_, _, _, ?_, rfl,
      repeats_others hslots⟩)⟩
    rw [← List.append_assoc]
    exact hitem.gives hs (List.forall_mem_append.2 ⟨hinside, hs.before⟩) slots rest

theorem readsBack_of_items (hslots : ∀ s ∈ slots, s.IsSpaced ∧ IsItem store limit p s.text s.value)
    (hempty : slots = [] → FailsAtClosing store limit p) : ReadsBack store limit p slots := by
  intro leading inside closing rest hleading hinside hclosing
  obtain ⟨before, hrender, hgives⟩ := gives_items hslots hempty hinside (closing ++ rest)
  rw [List.append_assoc, List.append_assoc, hrender, endsIn_iff]
  refine gives_commaList.2 ⟨before, _, ?_, hgives, ?_⟩
  · exact hleading.trimStart_append (avoids_cons.2 (by decide))
  · exact (hclosing.trimStart_append_eq rest).symm

/-! ## Items of the library -/

theorem failsAtClosing_iff : FailsAtClosing store limit p ↔
    ∀ k, (run store limit p).Fails (CodePoint.ofChar ']' :: k) := by
  simp only [FailsAtClosing, endsIn_iff]
  rfl

theorem failsAtClosing_integer : FailsAtClosing store limit integer :=
  failsAtClosing_iff.2 fun _ => fails_integer (avoids_cons.2 (by decide))

theorem failsAtClosing_identifier : FailsAtClosing store limit identifier :=
  failsAtClosing_iff.2 fun _ => fails_identifier (avoids_cons.2 (by decide))

theorem failsAtClosing_commaList : FailsAtClosing store limit (commaList p) :=
  failsAtClosing_iff.2 fun k =>
    fails_commaList (others_not_space [] k) (show _ ∉ some _ by decide)

theorem failsAtClosing_quotedString {quote escape : CodePoint} {escapes : Escapes}
    (h : quote ≠ CodePoint.ofChar ']') :
    FailsAtClosing store limit (quotedString quote escape escapes) := by
  refine failsAtClosing_iff.2 fun k => ?_
  rw [quotedString, fails_named]
  exact fails_between_of_opening (fails_character.2 fun t ht => h (List.cons.inj ht).1.symm)

theorem isItem_of_gives (hne : t ≠ []) (hspace : Avoids CodePoint.isSpace t)
    (h : ∀ k, Follows k → ∃ left, (run store limit p).Gives (t ++ k) (.success v left) ∧
      k.trimStart = left.trimStart) : IsItem store limit p t v where
  ne_nil := hne
  not_space := hspace
  reads k hk := endsIn_iff.2 (gives_lexeme.2 (h k hk))

theorem isItem_of_denotes (h : Denotes store limit p t v) : IsItem store limit p t v := by
  induction h with
  | @integer ds hds hallows =>
    obtain ⟨d, ds, rfl⟩ := List.exists_cons_of_ne_nil hds.1
    have hspace := CodePoint.not_isSpace_of_isDigit (hds.2 d (List.mem_cons_self ..))
    refine isItem_of_gives hds.1 (avoids_cons.2 hspace) fun k hk => ⟨k, ?_, rfl⟩
    rw [← integerResult_append hds hk.not_digit hallows]
    exact gives_integer store limit _
  | @identifier c t hc ht =>
    have hspace := CodePoint.not_isSpace_of_continuesName (CodePoint.continuesName_of_startsName hc)
    refine isItem_of_gives nofun (avoids_cons.2 hspace) fun k hk => ⟨k, ?_, rfl⟩
    refine gives_identifier.2 ⟨c, t ++ k, rfl, hc, ?_, ?_⟩
    · rw [takeWhile_append_of_avoids ht hk.not_name]
    · rw [dropWhile_append_of_avoids ht hk.not_name]
  | @quoted y us hne hspace hlegal =>
    refine isItem_of_gives nofun (avoids_cons.2 hspace) fun k hk => ⟨k, ?_, rfl⟩
    refine (QuotedString.gives_quotedString hne).2 ⟨us, ?_, rfl, hlegal.append hk.not_hexDigit⟩
    simp
  | @list p slots inside closing hinside hclosing hspaced hempty _ ih =>
    have hreads := readsBack_of_items (fun s hs => ⟨hspaced s hs, ih s hs⟩) hempty
    have hbracket : Avoids CodePoint.isSpace (render inside slots ++ closing) := by
      rw [render_eq_cons]
      exact avoids_cons.2 (by decide)
    refine isItem_of_gives (by simp [render_eq_cons]) hbracket fun k _ => ⟨k.trimStart, ?_, ?_⟩
    · exact endsIn_iff.1 (hreads [] inside closing k (by simp [IsBlank]) hinside hclosing)
    · exact (avoids_dropWhile _ k).dropWhile_eq_self.symm

/-- A list reads back every rendering, for any parser of items that keeps to its texts wherever an
item may stand. So do digits within the limit, names, quoted texts and lists of all these, so lists
nested to any depth are read back. -/
theorem commaList_reads_back (store : Store) (limit : Limit) :
    (∀ (p : Parser) (slots : List Slot),
      (∀ s ∈ slots, s.IsSpaced ∧ IsItem store limit p s.text s.value) →
        (slots = [] → FailsAtClosing store limit p) → ReadsBack store limit p slots) ∧
      (∀ p t v, Denotes store limit p t v → IsItem store limit p t v) ∧
      (∀ (p : Parser) (slots : List Slot),
        (∀ s ∈ slots, s.IsSpaced ∧ Denotes store limit p s.text s.value) →
          (slots = [] → FailsAtClosing store limit p) → ReadsBack store limit p slots) ∧
      FailsAtClosing store limit integer ∧ FailsAtClosing store limit identifier ∧
      (∀ p, FailsAtClosing store limit (commaList p)) ∧
      ∀ quote escape escapes, quote ≠ CodePoint.ofChar ']' →
        FailsAtClosing store limit (quotedString quote escape escapes) :=
  ⟨fun _ _ => readsBack_of_items, fun _ _ _ => isItem_of_denotes,
    fun _ _ hslots => readsBack_of_items fun s hs => (hslots s hs).imp_right isItem_of_denotes,
    failsAtClosing_integer, failsAtClosing_identifier, fun _ => failsAtClosing_commaList,
    fun _ _ _ => failsAtClosing_quotedString⟩

/-- A list of a list of numbers and an empty list. -/
theorem commaList_reads_back_nested :
    (commaList (commaList integer)).EndsIn Store.empty Limit.standard " [ [1, 20] ,[ ]] x"
      (.value (.success (.list [.list [.int 1, .int 20], .list []]) "x")) := by
  obtain ⟨hlaw, hitem, -, hinteger, -⟩ := commaList_reads_back Store.empty Limit.standard
  have hnil : IsBlank [] := nofun
  have hspace : IsBlank " " := List.forall_mem_singleton.2 (by decide)
  have hnumber (n : Nat) (hn : Limit.standard.allows (ofNat n).length = true) :
      Denotes Store.empty .standard integer (ofNat n) (.int n) := by
    obtain ⟨hdigits, hvalue⟩ := digits_ofNat n
    have h : Denotes Store.empty _ _ _ _ := .integer hdigits hn
    rwa [hvalue] at h
  let numbers : List Slot := [⟨[], ofNat 1, [], .int 1⟩, ⟨" ", ofNat 20, [], .int 20⟩]
  have hnumbers : Denotes Store.empty .standard (commaList integer) (render [] numbers ++ " ")
      (.list [.int 1, .int 20]) :=
    .list hnil hspace
      (List.forall_mem_cons.2 ⟨⟨hnil, hnil⟩, List.forall_mem_singleton.2 ⟨hspace, hnil⟩⟩) nofun
      (List.forall_mem_cons.2 ⟨hnumber 1 (by decide),
        List.forall_mem_singleton.2 (hnumber 20 (by decide))⟩)
  have hempty : Denotes Store.empty .standard (commaList integer) (render " " [] ++ [])
      (.list []) :=
    .list hspace hnil nofun (fun _ => hinteger) nofun
  exact hlaw _ [⟨" ", _, [], _⟩, ⟨[], _, [], _⟩]
    (List.forall_mem_cons.2 ⟨⟨⟨hspace, hnil⟩, hitem _ _ _ hnumbers⟩,
      List.forall_mem_singleton.2 ⟨⟨hnil, hnil⟩, hitem _ _ _ hempty⟩⟩)
    nofun " " [] " " "x" hspace hnil hspace

end Parselet.CommaList
