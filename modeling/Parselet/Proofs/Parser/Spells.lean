import Parselet.Token.Number
import Parselet.Token.Name
import Parselet.Proofs.Parser.Built
import Parselet.Proofs.Parser.Store
import Parselet.Proofs.Step.Spells
import Parselet.Proofs.Token.Lexeme

/-!
Parsers that lose nothing of the text they consume: what they produce and what they leave make up
the input. Between such parsers there are lists and rows of texts, and parts that may be absent.
-/

namespace Parselet

open Step

namespace Value

theorem eq_text_of_ok {e : Except Fault Text} {t : Text} {w : Value} (he : e = .ok t)
    (h : (do return text (← e)) = .ok w) : w = .text t := by
  subst he
  cases h
  rfl

end Value

/-- The forms in which the values of parsers spell texts: the text itself, a part that is empty if
it is absent, a list of texts, and a row of parts. -/
inductive Form where
  | text
  | part
  | texts
  | parts

def Form.Spells : Form → Spelling
  | text, v, t => v = .text t
  | part, v, t => v.orEmpty = .text t
  | texts, v, t => v.joined = .ok t
  | parts, v, t => v.joinedParts = .ok t

namespace Parser

/-- The parsers that spell what they consume, and those that they are made of on the way. The
forwards of `T` are taken for such parsers. -/
inductive Spelled (T : Forward → Prop) : Form → Parser → Prop
  | character (c : CodePoint) : Spelled T .text (character c)
  | satisfy (accepts : CodePoint → Bool) (m : Text) : Spelled T .text (satisfy accepts m)
  | string (t : Text) : Spelled T .text (string t)
  | anycase (t : Text) : Spelled T .text (anycase t)
  | regex (m : Matcher) : Spelled T .text (regex m)
  | orElse {p q : Parser} : Spelled T .text p → Spelled T .text q → Spelled T .text (p.orElse q)
  | oneOf {ps : List Parser} : (∀ p ∈ ps, Spelled T .text p) → Spelled T .text (oneOf ps)
  | many {p : Parser} : Spelled T .text p → Spelled T .texts p.many
  | many1 {p : Parser} : Spelled T .text p → Spelled T .texts p.many1
  | joined {p : Parser} : Spelled T .texts p → Spelled T .text (p.map Value.Function.joined)
  | part {p : Parser} : Spelled T .text p → Spelled T .part p
  | optional {p : Parser} : Spelled T .text p → Spelled T .part p.optional
  | seq {ps : List Parser} : (∀ p ∈ ps, Spelled T .part p) → Spelled T .parts (seq ps)
  | joinedParts {p : Parser} : Spelled T .parts p →
      Spelled T .text (p.map Value.Function.joinedParts)
  | named {form : Form} {p : Parser} (name : Text) : Spelled T form p →
      Spelled T form (p.named name)
  | forward {f : Forward} : T f → Spelled T .text (forward f)

end Parser

/-- The forwards of `T` that are defined stand for parsers that spell what they consume. -/
def Store.Spelled (T : Forward → Prop) (store : Store) : Prop :=
  ∀ f p, T f → store.target? f = some p → Parser.Spelled T .text p

namespace Parser

variable {T : Forward → Prop} {store : Store} {s : Settings} {form : Form} {p : Parser}
  {d : Nat} {S : Spelling} {src rest : Text} {v : Value}

theorem spells_runTo_succ (h : (p.body.eval store s.limit (runTo store s d)).Spells S) :
    (runTo store s (d + 1) p).Spells S :=
  fun _ _ _ hgives => h (Settings.visit_ending_iff.1 hgives).1

/-- One more call around parsers that spell what they consume. -/
theorem Spelled.runTo_succ (hstore : store.Spelled T)
    (ih : ∀ form p, Spelled T form p → (runTo store s d p).Spells form.Spells)
    (hp : Spelled T form p) : (runTo store s (d + 1) p).Spells form.Spells := by
  -- a new name is no call, and neither is a part that is there: these go by how the parser is made
  induction hp with
  | character c => exact spells_runTo_succ (spells_satisfy fun _ _ => rfl)
  | satisfy accepts m => exact spells_runTo_succ (spells_satisfy fun _ _ => rfl)
  | string t => exact spells_runTo_succ (spells_string rfl)
  | anycase t => exact spells_runTo_succ (spells_anycase fun _ => rfl)
  | regex m => exact spells_runTo_succ (spells_regex fun _ => rfl)
  | orElse hp hq => exact spells_runTo_succ ((ih _ _ hp).orElse (ih _ _ hq))
  | oneOf hps =>
    refine spells_runTo_succ (Step.Spells.oneOf fun k hk => ?_)
    obtain ⟨p, hp, rfl⟩ := List.mem_map.1 hk
    exact ih _ p (hps p hp)
  | many hp => exact spells_runTo_succ ((ih _ _ hp).many fun _ _ => Value.joined_of_forall₂)
  | many1 hp => exact spells_runTo_succ (ih _ _ hp.many).nonempty
  | joined hp =>
    exact spells_runTo_succ ((ih _ _ hp).map fun _ _ _ => Value.eq_text_of_ok)
  | part _ ihp =>
    refine ihp.mono ?_
    rintro _ t rfl
    rfl
  | optional hp =>
    refine spells_runTo_succ (Step.Spells.optional ((ih _ _ hp).mono ?_) rfl)
    rintro _ t rfl
    rfl
  | seq hps =>
    refine spells_runTo_succ (Step.Spells.seq (fun k hk => ?_) fun _ _ =>
      Value.joinedParts_of_forall₂)
    obtain ⟨p, hp, rfl⟩ := List.mem_map.1 hk
    exact ih _ p (hps p hp)
  | joinedParts hp =>
    exact spells_runTo_succ ((ih _ _ hp).map fun _ _ _ => Value.eq_text_of_ok)
  | named name _ ihp =>
    exact fun _ _ _ hgives => ihp (Settings.visit_ending_iff.2 (Settings.visit_ending_iff.1 hgives))
  | @forward f hf =>
    refine spells_runTo_succ ?_
    simp only [Parser.forward, body, Body.eval]
    split
    · next p htarget => exact ih _ p (hstore f p hf htarget)
    · exact fun _ _ _ hgives => absurd hgives not_gives_raise

/-- At whatever depth a run is cut off, what it has consumed is spelled by its value. -/
theorem Spelled.runTo (hstore : store.Spelled T) (hp : Spelled T form p) (s : Settings) (d : Nat) :
    (runTo store s d p).Spells form.Spells := by
  induction d generalizing form p with
  | zero => exact fun _ _ _ hgives => by cases hgives
  | succ d ih => exact hp.runTo_succ hstore fun _ _ h => ih h

/-! ## Names and numbers -/

/-- No forward is needed for the parsers of tokens. -/
theorem Spelled.runTo_of_false (hp : Spelled (fun _ => False) form p) (store : Store)
    (s : Settings) (d : Nat) : (Parser.runTo store s d p).Spells form.Spells :=
  hp.runTo (fun _ _ h => h.elim) s d

theorem spells_runTo (h : ∀ d, (p.body.eval store s.limit (runTo store s d)).Spells S) (d : Nat) :
    (runTo store s d p).Spells S := by
  cases d with
  | zero => exact fun _ _ _ hgives => by cases hgives
  | succ d => exact spells_runTo_succ (h d)

theorem spelled_orUnderscore (accepts : CodePoint → Bool) (m : Text) :
    Spelled T .text ((satisfy accepts m).orElse (character '_')) :=
  .orElse (.satisfy accepts m) (.character _)

theorem spells_identifier (store : Store) (s : Settings) (d : Nat) :
    (runTo store s d identifier).Spells Form.text.Spells := by
  have hfirst := (spelled_orUnderscore CodePoint.isLetter "a letter").runTo_of_false store s
  have hmore := (spelled_orUnderscore (fun c => c.isLetter || c.isDigit)
    "an alphanumeric character").many.runTo_of_false store s
  have hlast (d : Nat) : (Step.seq [runTo store s d (many (alphanumeric.orElse
      (character '_')))]).Spells fun v t => ∃ w, v = .tuple [w] ∧ w.joined = .ok t := by
    have hnil : (Step.seq []).Spells fun v t => v = .tuple [] ∧ t = [] :=
      spells_seq_nil ⟨rfl, rfl⟩
    refine (hmore d).seq_cons hnil ?_
    rintro w t vs _ hw ⟨⟨⟩, rfl⟩
    exact ⟨w, rfl, by rw [List.append_nil]; exact hw⟩
  have hparts (d : Nat) : (runTo store s d (seq [letter.orElse (character '_'),
      many (alphanumeric.orElse (character '_'))])).Spells
        fun v t => ∃ c w u, v = .tuple [.text c, w] ∧ w.joined = .ok u ∧ t = c ++ u := by
    refine spells_runTo (fun d => (hfirst d).seq_cons (hlast d) ?_) d
    rintro _ c vs u rfl ⟨w, ⟨⟩, hw⟩
    exact ⟨c, w, u, rfl, hw, rfl⟩
  refine spells_runTo (fun d => (hparts d).map ?_) d
  rintro _ _ v ⟨c, w, u, rfl, hw, rfl⟩ hv
  cases (nameOf_pair hw).symm.trans hv
  rfl

theorem Spelled.pair {q : Parser} (hp : Spelled T .part p) (hq : Spelled T .part q) :
    Spelled T .parts (Parser.seq [p, q]) :=
  .seq (List.forall_mem_cons.2 ⟨hp, List.forall_mem_singleton.2 hq⟩)

theorem Spelled.triple {q k : Parser} (hp : Spelled T .part p) (hq : Spelled T .part q)
    (hk : Spelled T .part k) : Spelled T .parts (Parser.seq [p, q, k]) :=
  .seq (List.forall_mem_cons.2 ⟨hp, List.forall_mem_cons.2 ⟨hq, List.forall_mem_singleton.2 hk⟩⟩)

/-- The parts of a decimal number, of which the two outer ones may be absent. -/
theorem spelled_decimalParts :
    Spelled T .parts (seq [sign.optional, mantissa, exponent.optional]) := by
  have hsign : Spelled T .text sign := .satisfy _ _
  have hdigits : Spelled T .text digits := .joined (.many1 (.satisfy _ _))
  have hfraction : Spelled T .text fraction :=
    .joinedParts (.pair (.part (.character _)) (.part hdigits))
  have hmantissa : Spelled T .text mantissa :=
    .orElse (.joinedParts (.pair (.part hdigits) (.optional hfraction))) hfraction
  have hexponent : Spelled T .text exponent :=
    .joinedParts (.triple (.part (.anycase _)) (.optional hsign) (.part hdigits))
  exact .triple (.optional hsign) (.part hmantissa) (.optional hexponent)

/-- The number is read from the text that its parts make up. -/
theorem parts_of_decimalNumber {store : Store} {s : Settings}
    (h : (decimalNumber.parse store s src).ending = .value (.success v rest)) :
    ∃ parts t, ((seq [sign.optional, mantissa, exponent.optional]).parse store s src).ending =
        .value (.success parts rest) ∧
      parts.joinedParts = .ok t ∧ v = .float (Binary64.ofText t) := by
  unfold parse at h ⊢
  cases hdepth : s.depth with
  | zero =>
    rw [hdepth] at h
    cases h
  | succ d =>
    rw [hdepth] at h
    obtain ⟨parts, hparts, hv⟩ := gives_map_success.1 (Settings.visit_ending_iff.1 h).1
    obtain ⟨t, ht, ⟨⟩⟩ := except_bind_eq_ok_iff.1 hv
    -- the parts are run one call deeper than the number
    refine ⟨parts, t, ?_, ht, rfl⟩
    rw [runTo_mono (Nat.le_succ d) (hparts.trans_ne nofun)]
    exact hparts

/-- What a parser of texts produces and what it leaves make up the input, also where it is reached
through the forwards of `T` from itself. So do a name and what follows it, and the text that a
decimal number is read from is what has been consumed. -/
theorem text_parsers_lose_nothing (store : Store) (s : Settings) (src rest : Text) (v : Value) :
    (∀ T : Forward → Prop, store.Spelled T → ∀ p, Spelled T .text p →
        (p.parse store s src).ending = .value (.success v rest) →
          ∃ t, v = .text t ∧ t ++ rest = src) ∧
      ((identifier.parse store s src).ending = .value (.success v rest) →
        ∃ t, v = .text t ∧ t ++ rest = src) ∧
      ((decimalNumber.parse store s src).ending = .value (.success v rest) →
        ∃ parts t, ((seq [sign.optional, mantissa, exponent.optional]).parse store s src).ending =
            .value (.success parts rest) ∧
          parts.joinedParts = .ok t ∧ v = .float (Binary64.ofText t) ∧ t ++ rest = src) := by
  refine ⟨fun T hstore p hp h => hp.runTo hstore s s.depth h,
    fun h => spells_identifier store s s.depth h, fun h => ?_⟩
  obtain ⟨parts, t, hparts, ht, hv⟩ := parts_of_decimalNumber h
  obtain ⟨u, hu, happend⟩ := spelled_decimalParts.runTo_of_false store s s.depth hparts
  cases ht.symm.trans hu
  exact ⟨parts, t, hparts, ht, hv, happend⟩

/-- Nested blocks through a forward, with keywords in any case and numbers that may be missing; a
name; and a number without digits before its point. -/
theorem text_parsers_lose_nothing_blocks :
    let block : Forward := ⟨0, "block"⟩
    let item := oneOf [forward block, (satisfy CodePoint.isSpace "a space").many1.map
      Value.Function.joined]
    let blocks := (seq [anycase "do", (item.many.map Value.Function.joined).optional,
      digits.optional, anycase "end"]).map Value.Function.joinedParts
    let store : Store := ⟨[some blocks]⟩
    let s : Settings := { depth := 30 }
    (∃ v rest, ((forward block).parse store s "DO do7End END.").ending =
        .value (.success v rest) ∧ ∃ t, v = .text t ∧ t ++ rest = "DO do7End END.") ∧
      (∃ v rest, (identifier.parse store s "_x1-").ending = .value (.success v rest) ∧
        ∃ t, v = .text t ∧ t ++ rest = "_x1-") ∧
      ∃ v rest, (decimalNumber.parse store s ".5e3x").ending = .value (.success v rest) ∧
        ∃ t, v = .float (Binary64.ofText t) ∧ t ++ rest = ".5e3x" := by
  intro block item blocks store s
  have hforward : Spelled (fun _ => True) .text (forward block) := .forward trivial
  have hitem : Spelled (fun _ => True) .text item :=
    .oneOf (List.forall_mem_cons.2 ⟨hforward,
      List.forall_mem_singleton.2 (.joined (.many1 (.satisfy _ _)))⟩)
  have hblocks : Spelled (fun _ => True) .text blocks :=
    .joinedParts (.seq (List.forall_mem_cons.2 ⟨.part (.anycase _),
      List.forall_mem_cons.2 ⟨.optional (.joined (.many hitem)),
        List.forall_mem_cons.2 ⟨.optional (.joined (.many1 (.satisfy _ _))),
          List.forall_mem_singleton.2 (.part (.anycase _))⟩⟩⟩))
  have hstore : store.Spelled fun _ => True := by
    intro f p _ hf
    cases List.mem_singleton.1 (List.mem_of_getElem? (Store.target?_eq_some.1 hf))
    exact hblocks
  have hblock : ((forward block).parse store s "DO do7End END.").ending =
      .value (.success (.text "DO do7End END") ".") := by decide +kernel
  have hname : (identifier.parse store s "_x1-").ending = .value (.success (.text "_x1") "-") := by
    decide +kernel
  have hnumber : (decimalNumber.parse store s ".5e3x").ending =
      .value (.success (.float (Binary64.ofText ".5e3")) "x") := by decide +kernel
  refine ⟨⟨_, _, hblock, (text_parsers_lose_nothing store s _ _ _).1 _ hstore _ hforward hblock⟩,
    ⟨_, _, hname, (text_parsers_lose_nothing store s _ _ _).2.1 hname⟩, _, _, hnumber, ?_⟩
  obtain ⟨_, t, -, -, ht⟩ := (text_parsers_lose_nothing store s _ _ _).2.2 hnumber
  exact ⟨t, ht⟩

end Parser

end Parselet
