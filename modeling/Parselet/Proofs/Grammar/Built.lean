import Parselet.Proofs.Grammar.Library
import Parselet.Proofs.Parser.Store

/-!
What an expression describes is built from what its names are bound to. Building makes new forwards
only, and the store on the way only ever holds built parsers, whether or not the forwards in it are
defined yet.
-/

namespace Parselet

variable {base Q : Parser → Prop} {known : Forward → Prop} {α β : Type}

namespace Store

variable {s s' s₁ : Store} {f : Forward} {p : Parser} {name : Text}

theorem all_iff_mem : s.All Q ↔ ∀ p, some p ∈ s.targets → Q p := by
  constructor
  · intro h p hp
    obtain ⟨i, hi⟩ := List.getElem?_of_mem hp
    exact h ⟨i, []⟩ p (target?_eq_some.2 hi)
  · intro h f p hf
    exact h p (List.mem_of_getElem? (target?_eq_some.1 hf))

theorem All.allocate (hs : s.All Q) (name : Text) : (s.allocate name).2.All Q := by
  rw [all_iff_mem] at hs ⊢
  intro p hp
  rw [targets_allocate] at hp
  exact hs p (by simpa using hp)

theorem All.define (hs : s.All Q) (hp : Q p) (h : s.define f p = .ok s') : s'.All Q := by
  rw [all_iff_mem] at hs ⊢
  intro q hq
  rw [targets_define h] at hq
  rcases List.mem_or_eq_of_mem_set hq with hmem | heq
  · exact hs q hmem
  · cases heq
    exact hp

theorem prefix_allocate (s : Store) (name : Text) :
    s.targets <+: (s.allocate name).2.targets := List.prefix_append _ _

theorem length_define (h : s.define f p = .ok s') : s'.targets.length = s.targets.length := by
  rw [targets_define h, List.length_set]

/-- The forward that a recursive parser is reached through is new, and no other is defined. -/
theorem prefix_of_define_allocate (hbuild : (s.allocate name).2.targets <+: s₁.targets)
    (h : s₁.define (s.allocate name).1 p = .ok s') : s.targets <+: s'.targets := by
  obtain ⟨more, hmore⟩ := (s.prefix_allocate name).trans hbuild
  have hid : s.targets.length ≤ (s.allocate name).1.id := Nat.le_refl _
  rw [targets_define h, ← hmore, List.set_append_right _ _ hid]
  exact List.prefix_append _ _

/-- And it is one of those that have been made. -/
theorem lt_length_of_define_allocate (hbuild : (s.allocate name).2.targets <+: s₁.targets)
    (h : s₁.define (s.allocate name).1 p = .ok s') :
    (s.allocate name).1.id < s'.targets.length := by
  rw [length_define h]
  refine Nat.lt_of_lt_of_le ?_ hbuild.length_le
  simp [allocate]

end Store

/-- All names are bound to parsers that `Q` holds of. -/
def Bindings.All (Q : Parser → Prop) (env : Bindings) : Prop :=
  ∀ id b, env.lookup id = some b → Q b.parser

/-- All names are bound to built parsers. -/
abbrev Bindings.Built (base : Parser → Prop) (env : Bindings) : Prop :=
  env.All (Parser.Built base)

theorem Bindings.All.cons {env : Bindings} (henv : env.All Q) {b : Binding} (hb : Q b.parser)
    (id : Text) : Bindings.All Q ((id, b) :: env) := by
  intro id' b' h
  rw [List.lookup_cons] at h
  split at h
  · cases h
    exact hb
  · exact henv id' b' h

/-- `m` leaves the forwards alone that were made before. If those that there are after it are known,
and the store and the names stand for parsers that `Q` holds of, then so does the store after it,
and `P` holds of the result. -/
def Build.Makes (known : Forward → Prop) (Q : Parser → Prop) (env : Bindings) (m : Build α)
    (P : α → Prop) : Prop :=
  ∀ ⦃s : Store⦄ ⦃a : α⦄ ⦃s' : Store⦄, m.run s = .ok (a, s') →
    s.targets <+: s'.targets ∧
      ((∀ f : Forward, f.id < s'.targets.length → known f) → env.All Q → s.All Q →
        P a ∧ s'.All Q)

namespace Build

variable {env : Bindings} {m : Build α} {P : α → Prop} {R : β → Prop}

theorem makes_pure {a : α} (h : P a) : Makes known Q env (pure a) P := by
  intro s b s' ha
  cases ha
  exact ⟨List.prefix_rfl, fun _ _ hs => ⟨h, hs⟩⟩

theorem run_lift_eq_ok_iff {e : Except Fault α} {s s' : Store} {a : α} :
    (liftM e : Build α).run s = .ok (a, s') ↔ e = .ok a ∧ s' = s := by
  cases e with
  | error fault =>
    constructor
    · rintro ⟨⟩
    · rintro ⟨⟨⟩, -⟩
  | ok b =>
    constructor
    · rintro ⟨⟩
      exact ⟨rfl, rfl⟩
    · rintro ⟨⟨⟩, rfl⟩
      rfl

theorem makes_lift {e : Except Fault α} (h : ∀ a, e = .ok a → P a) :
    Makes known Q env (liftM e : Build α) P := by
  intro s a s' hrun
  obtain ⟨ha, rfl⟩ := run_lift_eq_ok_iff.1 hrun
  exact ⟨List.prefix_rfl, fun _ _ hs => ⟨h a ha, hs⟩⟩

/-- What is known after the second part was known after the first one. -/
theorem Makes.bind {next : α → Build β} (hm : Makes known Q env m P)
    (hnext : ∀ a, Makes known Q env (next a) fun b => P a → R b) :
    Makes known Q env (m >>= next) R := by
  intro s b s' hb
  rw [StateT.run_bind] at hb
  obtain ⟨⟨a, s₁⟩, ha, hb⟩ := except_bind_eq_ok_iff.1 hb
  obtain ⟨hkept, hfirst⟩ := hm ha
  obtain ⟨hmore, hsecond⟩ := hnext a hb
  refine ⟨hkept.trans hmore, fun hknown henv hs => ?_⟩
  obtain ⟨hP, hs₁⟩ := hfirst (fun f hf => hknown f (hf.trans_le hmore.length_le)) henv hs
  obtain ⟨hR, hs'⟩ := hsecond hknown henv hs₁
  exact ⟨hR hP, hs'⟩

theorem makes_ref {limit : Limit} (id : Text) :
    Makes known Q env ((Expr.ref id).build limit env) Q := by
  intro s p s' h
  simp only [Expr.build] at h
  cases hlookup : env.lookup id with
  | none =>
    rw [hlookup] at h
    cases h
  | some b =>
    rw [hlookup] at h
    cases h
    exact ⟨List.prefix_rfl, fun _ henv hs => ⟨henv id b hlookup, hs⟩⟩

/-- A recursive expression is built while the forward for it stands for nothing. -/
theorem makes_fix {limit : Limit} {id name : Text} {e : Expr}
    (hforward : ∀ f, known f → Q (Parser.forward f))
    (he : ∀ f, Makes known Q ((id, Binding.ofForward f) :: env)
      (e.build limit ((id, Binding.ofForward f) :: env)) Q) :
    Makes known Q env ((Expr.fix id name e).build limit env) Q := by
  intro s p s' h
  simp only [Expr.build, StateT.run_bind, StateT.run_get, StateT.run_set, pure_bind] at h
  obtain ⟨⟨q, s₁⟩, hbuild, h⟩ := except_bind_eq_ok_iff.1 h
  obtain ⟨⟨s₂, s₃⟩, hdefine, h⟩ := except_bind_eq_ok_iff.1 h
  cases h
  obtain ⟨hdefine, -⟩ := run_lift_eq_ok_iff.1 hdefine
  obtain ⟨hkept, hmakes⟩ := he _ hbuild
  refine ⟨Store.prefix_of_define_allocate hkept hdefine, fun hknown henv hs => ?_⟩
  -- the forward is among those that there are in the end, so it was known all the time
  have hf := hforward _ (hknown _ (Store.lt_length_of_define_allocate hkept hdefine))
  obtain ⟨hq, hs₁⟩ := hmakes (fun g hg => hknown g (by rwa [Store.length_define hdefine]))
    (henv.cons hf id) (hs.allocate name)
  exact ⟨hf, hs₁.define hq hdefine⟩

theorem makes_arithmetic :
    Makes known (Parser.MadeFrom base known) env Parser.arithmetic
      (Parser.MadeFrom base known) := by
  intro s p s' h
  unfold Parser.arithmetic at h
  simp only [StateT.run_bind, StateT.run_get, StateT.run_set, pure_bind] at h
  obtain ⟨⟨s₁, s₂⟩, hdefine, h⟩ := except_bind_eq_ok_iff.1 h
  cases h
  obtain ⟨hdefine, -⟩ := run_lift_eq_ok_iff.1 hdefine
  refine ⟨Store.prefix_of_define_allocate List.prefix_rfl hdefine, fun hknown _ hs => ?_⟩
  have hf := hknown _ (Store.lt_length_of_define_allocate List.prefix_rfl hdefine)
  have hexpr : Parser.MadeFrom base known (Parser.forward (s.allocate "expr").1) := .forward _ hf
  exact ⟨.named _ (Parser.madeFrom_skipWhitespace.andThen hexpr),
    (hs.allocate "expr").define hexpr.sum hdefine⟩

end Build

mutual

/-- The custom parsers in the expression stay within the input. -/
def Expr.CustomsStayWithin : Expr → Prop
  | .custom f _ => ∀ src r, f src = .ok r → r.Within src
  | .many e | .many1 e | .optional e | .lookahead e | .inverted e => e.CustomsStayWithin
  | .map e _ | .named e _ | .lexeme e | .commaList e | .fix _ _ e => e.CustomsStayWithin
  | .seq es | .oneOf es => Expr.AllCustomsStayWithin es
  | .between a e b => a.CustomsStayWithin ∧ e.CustomsStayWithin ∧ b.CustomsStayWithin
  | .sepBy a b | .sepBy1 a b | .orElse a b | .andThen a b | .followedBy a b =>
    a.CustomsStayWithin ∧ b.CustomsStayWithin
  | .flatMap e next => e.CustomsStayWithin ∧ next.CustomsStayWithin
  | _ => True

def Expr.AllCustomsStayWithin : List Expr → Prop
  | [] => True
  | e :: es => e.CustomsStayWithin ∧ Expr.AllCustomsStayWithin es

def Continuation.CustomsStayWithin : Continuation → Prop
  | .const e | .count e => e.CustomsStayWithin
  | .cases _ branches other => Expr.AllCustomsStayWithin branches ∧ other.CustomsStayWithin
  | _ => True

end

/-- A continuation that gives parsers that `Q` holds of and no others. -/
def GivesOnly (Q : Parser → Prop) (next : Limit → Value → Except Fault Parser) : Prop :=
  ∀ limit v p, next limit v = .ok p → Q p

theorem exists_eq_of_compileRegex {limit : Limit} {names : Pattern.CharacterNames} {source : Text}
    {flags : Pattern.Flags} {again : Bool} {p : Parser}
    (h : compileRegex limit names source flags again = .ok p) : ∃ m, p = Parser.regex m := by
  unfold compileRegex at h
  split at h
  · cases h
  · split at h
    · cases h
    · cases h
      exact ⟨_, rfl⟩

theorem madeFrom_of_quotedStringOf {quote escape : Text} {escapes : Parser.Escapes} {p : Parser}
    (h : quotedStringOf quote escape escapes = .ok p) : Parser.MadeFrom base known p := by
  unfold quotedStringOf at h
  split at h
  · cases h
    exact Parser.madeFrom_quotedString _ _ _
  · cases h

section Building

variable (base : Parser → Prop) (known : Forward → Prop) (limit : Limit)

open Build Parselet.Parser

mutual

/-- Whatever an expression describes is made from what is there. Its custom parsers are taken as
given or stay within the input. -/
theorem Expr.build_makes (env : Bindings) (e : Expr)
    (he : (∀ f name, base (custom f name)) ∨ e.CustomsStayWithin) :
    Makes known (MadeFrom base known) env (e.build limit env) (MadeFrom base known) := by
  cases e with
  | pure v => exact makes_lift fun p hp => madeFrom_of_pure hp
  | fail m => exact makes_pure (.fail _ _)
  | eof => exact makes_pure (.eof _)
  | digit => exact makes_pure (.satisfy _ _ _)
  | letter => exact makes_pure (.satisfy _ _ _)
  | alphanumeric => exact makes_pure (.satisfy _ _ _)
  | whitespace => exact makes_pure (.satisfy _ _ _)
  | integer => exact makes_pure madeFrom_integer
  | skipWhitespace => exact makes_pure madeFrom_skipWhitespace
  | character s => exact makes_lift fun p hp => madeFrom_of_character hp
  | string s => exact makes_pure (.string _ _)
  | anycase s => exact makes_pure (.anycase _ _)
  | satisfy accepts m => exact makes_pure (.satisfy _ _ _)
  | regex source flags again names =>
    refine makes_lift fun p hp => ?_
    obtain ⟨m, rfl⟩ := exists_eq_of_compileRegex hp
    exact .regex _ m
  | compiled m => exact makes_pure (.regex _ m)
  | many e => exact (e.build_makes env he).bind fun p => makes_pure fun hp => .many _ hp
  | many1 e => exact (e.build_makes env he).bind fun p => makes_pure fun hp => hp.many1
  | optional e => exact (e.build_makes env he).bind fun p => makes_pure fun hp => .optional _ hp
  | lookahead e => exact (e.build_makes env he).bind fun p => makes_pure fun hp => .lookahead _ hp
  | inverted e => exact (e.build_makes env he).bind fun p => makes_pure fun hp => .inverted _ hp
  | seq es =>
    exact (Expr.buildAll_makes env es he).bind fun ps => makes_lift fun p hp hps =>
      madeFrom_of_atLeastTwo hp (.seq _ hps)
  | oneOf es =>
    exact (Expr.buildAll_makes env es he).bind fun ps => makes_lift fun p hp hps =>
      madeFrom_of_atLeastTwo hp (.oneOf _ hps)
  | between a e b =>
    refine (a.build_makes env (he.imp_right (·.1))).bind fun p => ?_
    refine (e.build_makes env (he.imp_right (·.2.1))).bind fun q => ?_
    refine (b.build_makes env (he.imp_right (·.2.2))).bind fun k => ?_
    exact makes_pure fun hk hq hp => hp.between hq hk
  | sepBy a b =>
    refine (a.build_makes env (he.imp_right (·.1))).bind fun p => ?_
    refine (b.build_makes env (he.imp_right (·.2))).bind fun q => ?_
    exact makes_pure fun hq hp => .sepBy _ hp hq
  | sepBy1 a b =>
    refine (a.build_makes env (he.imp_right (·.1))).bind fun p => ?_
    refine (b.build_makes env (he.imp_right (·.2))).bind fun q => ?_
    exact makes_pure fun hq hp => hp.sepBy1 hq
  | map e f => exact (e.build_makes env he).bind fun p => makes_pure fun hp => .map _ f hp
  | flatMap e next =>
    refine (e.build_makes env (he.imp_right (·.1))).bind fun p => ?_
    refine (next.build_makes env (he.imp_right (·.2))).bind fun k => ?_
    exact makes_pure fun hk hp => .flatMap _ hp hk
  | named e name => exact (e.build_makes env he).bind fun p => makes_pure fun hp => .named _ hp
  | orElse a b =>
    refine (a.build_makes env (he.imp_right (·.1))).bind fun p => ?_
    refine (b.build_makes env (he.imp_right (·.2))).bind fun q => ?_
    exact makes_pure fun hq hp => .orElse _ hp hq
  | andThen a b =>
    refine (a.build_makes env (he.imp_right (·.1))).bind fun p => ?_
    refine (b.build_makes env (he.imp_right (·.2))).bind fun q => ?_
    exact makes_pure fun hq hp => hp.andThen hq
  | followedBy a b =>
    refine (a.build_makes env (he.imp_right (·.1))).bind fun p => ?_
    refine (b.build_makes env (he.imp_right (·.2))).bind fun q => ?_
    exact makes_pure fun hq hp => hp.followedBy hq
  | sign => exact makes_pure madeFrom_sign
  | signedInteger => exact makes_pure madeFrom_signedInteger
  | decimalNumber => exact makes_pure madeFrom_decimalNumber
  | unicodeEscape => exact makes_pure madeFrom_unicodeEscape
  | identifier => exact makes_pure madeFrom_identifier
  | arithmetic => exact makes_arithmetic
  | quotedString quote escape escapes => exact makes_lift fun p hp => madeFrom_of_quotedStringOf hp
  | lexeme e => exact (e.build_makes env he).bind fun p => makes_pure fun hp => hp.lexeme
  | commaList e => exact (e.build_makes env he).bind fun p => makes_pure fun hp => hp.commaList
  | symbol s => exact makes_pure (madeFrom_symbol s)
  | custom f name => exact makes_pure (he.elim (fun h => .base (h f name)) (.custom _))
  | ref id => exact makes_ref id
  | fix id name e => exact makes_fix (fun f hf => .forward _ hf) fun f => e.build_makes _ he

theorem Expr.buildAll_makes (env : Bindings) (es : List Expr)
    (hes : (∀ f name, base (custom f name)) ∨ Expr.AllCustomsStayWithin es) :
    Makes known (MadeFrom base known) env (Expr.buildAll limit env es)
      fun ps => ∀ p ∈ ps, MadeFrom base known p := by
  cases es with
  | nil => exact makes_pure (by simp)
  | cons e es =>
    refine (e.build_makes env (hes.imp_right (·.1))).bind fun p => ?_
    refine (Expr.buildAll_makes env es (hes.imp_right (·.2))).bind fun ps => ?_
    exact makes_pure fun hps hp => List.forall_mem_cons.2 ⟨hp, hps⟩

theorem Continuation.build_makes (env : Bindings) (next : Continuation)
    (hnext : (∀ f name, base (custom f name)) ∨ next.CustomsStayWithin) :
    Makes known (MadeFrom base known) env (next.build limit env)
      (GivesOnly (MadeFrom base known)) := by
  cases next with
  | pure => exact makes_pure fun limit v p hp => madeFrom_of_pure hp
  | fail => exact makes_pure fun limit v p hp => madeFrom_of_failWith hp
  | character => exact makes_pure fun limit v p hp => madeFrom_of_characterOfValue hp
  | string => exact makes_pure fun limit v p hp => madeFrom_of_stringOfValue hp
  | anycase => exact makes_pure fun limit v p hp => madeFrom_of_anycaseOfValue hp
  | repeated s => exact makes_pure fun limit v p hp => madeFrom_of_repeatedString hp
  | const e =>
    refine (e.build_makes env hnext).bind fun p => makes_pure fun hp limit v q hq => ?_
    cases hq
    exact hp
  | count e =>
    exact (e.build_makes env hnext).bind fun p => makes_pure fun hp limit v q hq =>
      hp.replicated hq
  | cases keys branches other =>
    refine (Expr.buildAll_makes env branches (hnext.imp_right (·.1))).bind fun ps => ?_
    refine (other.build_makes env (hnext.imp_right (·.2))).bind fun p => ?_
    refine makes_pure fun hp hps limit v q hq => ?_
    cases hq
    exact hp.choose hps v

end

end Building

/-- Every result of a built parser leaves or records an end of the input, if the forwards stand for
built parsers too. What is not built but stays within the input by itself may be built upon. In
particular, every expression gives such a parser. -/
theorem results_stay_within (store : Store) :
    (store.Built (Parser.StaysWithin store) →
      ∀ p, Parser.Built (Parser.StaysWithin store) p → p.StaysWithin store) ∧
      ∀ (limit : Limit) (env : Bindings) (e : Expr) (p : Parser) (store' : Store),
        store.Built (fun _ => False) → env.Built (fun _ => False) → e.CustomsStayWithin →
          (e.build limit env).run store = .ok (p, store') → p.StaysWithin store' := by
  constructor
  · intro hstore p hp
    exact hp.staysWithin (fun _ h => h) hstore
  · intro limit env e p store' hstore henv he hbuild
    -- nothing is taken as given, so what is built stays within in the new store too
    obtain ⟨hp, hstore'⟩ := (e.build_makes (fun _ => False) (fun _ => True) limit env
      (.inr he) hbuild).2 (fun _ _ => trivial) henv hstore
    exact Parser.Built.staysWithin (fun _ h => h.elim) hstore' hp

/-- Nested parentheses through a forward, after a custom parser that skips one character. -/
theorem results_stay_within_nested :
    let nest : Forward := ⟨0, "nest"⟩
    let skip := Parser.custom (fun src => .ok (.success .nothing (src.drop 1))) "skip"
    let store : Store :=
      ⟨[some (Parser.between (.character '(') (Parser.forward nest).many (.character ')'))]⟩
    (skip.flatMap fun _ _ => .ok (Parser.forward nest)).StaysWithin store := by
  intro nest skip store
  have hnest : Parser.Built (Parser.StaysWithin store)
      (Parser.between (.character '(') (Parser.forward nest).many (.character ')')) :=
    Parser.MadeFrom.between (.character _ _) (.many _ (.forward _ trivial)) (.character _ _)
  have hstore : store.Built (Parser.StaysWithin store) := by
    refine Store.all_iff_mem.2 fun p hp => ?_
    cases List.mem_singleton.1 hp
    exact hnest
  have hskip : Parser.Built (Parser.StaysWithin store) skip := by
    refine .custom _ fun src r hr => ?_
    cases hr
    exact List.drop_suffix 1 src
  refine (results_stay_within store).1 hstore _ (.flatMap _ hskip fun _ v q hq => ?_)
  cases hq
  exact .forward _ trivial

end Parselet
