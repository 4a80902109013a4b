import Parselet.Proofs.Grammar.Built
import Parselet.Proofs.Parser.Debug
import Parselet.Proofs.Parser.Termination
import Parselet.Proofs.Token.Conversion

/-!
Grammars that are made of the library alone are never given up. The integers in their values are as
short as the limit wants them, so that every value can be shown in a message or a log line.
-/

namespace Parselet

open Relation

namespace Parser

/-- The parsers that can be made under the limit without functions on values, other than those of
the library itself, and without arithmetic. -/
inductive Library (limit : Limit) : Parser → Prop
  | pure {v : Value} {k : Parser} : Parser.pure limit v = .ok k → Library limit k
  | fail (m : Text) : Library limit (fail m)
  | eof : Library limit eof
  | character {t : Text} {k : Parser} : character? t = .ok k → Library limit k
  | satisfy (accepts : CodePoint → Bool) (m : Text) : Library limit (satisfy accepts m)
  | string (t : Text) : Library limit (string t)
  | anycase (t : Text) : Library limit (anycase t)
  | regex (m : Matcher) : Library limit (regex m)
  | skipWhitespace : Library limit skipWhitespace
  | integer : Library limit integer
  | signedInteger : Library limit signedInteger
  | decimalNumber : Library limit decimalNumber
  | unicodeEscape : Library limit unicodeEscape
  | identifier : Library limit identifier
  | quotedString {quote escape : Text} {escapes : Escapes} {k : Parser} :
      quotedStringOf quote escape escapes = .ok k → Library limit k
  | named {p : Parser} (name : Text) : Library limit p → Library limit (p.named name)
  | orElse {p q : Parser} : Library limit p → Library limit q → Library limit (p.orElse q)
  | andThen {p q : Parser} : Library limit p → Library limit q → Library limit (p.andThen q)
  | followedBy {p q : Parser} : Library limit p → Library limit q → Library limit (p.followedBy q)
  | many {p : Parser} : Library limit p → Library limit p.many
  | many1 {p : Parser} : Library limit p → Library limit p.many1
  | optional {p : Parser} : Library limit p → Library limit p.optional
  | sepBy {p q : Parser} : Library limit p → Library limit q → Library limit (p.sepBy q)
  | sepBy1 {p q : Parser} : Library limit p → Library limit q → Library limit (p.sepBy1 q)
  | seq {ps : List Parser} {k : Parser} : (∀ p ∈ ps, Library limit p) →
      atLeastTwo seq ps = .ok k → Library limit k
  | oneOf {ps : List Parser} {k : Parser} : (∀ p ∈ ps, Library limit p) →
      atLeastTwo oneOf ps = .ok k → Library limit k
  | lookahead {p : Parser} : Library limit p → Library limit p.lookahead
  | inverted {p : Parser} : Library limit p → Library limit p.inverted
  | forward (f : Forward) : Library limit (forward f)

namespace Library

variable {limit : Limit} {p q k : Parser}

theorem between (hp : Library limit p) (hq : Library limit q) (hk : Library limit k) :
    Library limit (between p q k) :=
  ((hp.andThen hq).followedBy hk).named _

theorem lexeme (hp : Library limit p) : Library limit (lexeme p) := hp.followedBy .skipWhitespace

theorem symbol (t : Text) : Library limit (symbol t) := lexeme (.string t)

theorem commaList (hp : Library limit p) : Library limit (commaList p) :=
  (skipWhitespace.andThen ((symbol _).between (hp.lexeme.sepBy (symbol _)) (symbol _))).named _

theorem sign : Library limit sign := .satisfy _ _

theorem built (hp : Library limit p) : Built (fun _ => False) p := by
  induction hp with
  | pure h => exact madeFrom_of_pure h
  | fail m => exact .fail _ _
  | eof => exact .eof _
  | character h => exact madeFrom_of_character h
  | satisfy accepts m => exact .satisfy _ _ _
  | string t => exact .string _ _
  | anycase t => exact .anycase _ _
  | regex m => exact .regex _ m
  | skipWhitespace => exact madeFrom_skipWhitespace
  | integer => exact madeFrom_integer
  | signedInteger => exact madeFrom_signedInteger
  | decimalNumber => exact madeFrom_decimalNumber
  | unicodeEscape => exact madeFrom_unicodeEscape
  | identifier => exact madeFrom_identifier
  | quotedString h => exact madeFrom_of_quotedStringOf h
  | named name _ ih => exact .named name ih
  | orElse _ _ ih ih' => exact .orElse _ ih ih'
  | andThen _ _ ih ih' => exact ih.andThen ih'
  | followedBy _ _ ih ih' => exact ih.followedBy ih'
  | many _ ih => exact .many _ ih
  | many1 _ ih => exact ih.many1
  | optional _ ih => exact .optional _ ih
  | sepBy _ _ ih ih' => exact .sepBy _ ih ih'
  | sepBy1 _ _ ih ih' => exact ih.sepBy1 ih'
  | seq _ h ih => exact madeFrom_of_atLeastTwo h (.seq _ ih)
  | oneOf _ h ih => exact madeFrom_of_atLeastTwo h (.oneOf _ ih)
  | lookahead _ ih => exact .lookahead _ ih
  | inverted _ ih => exact .inverted _ ih
  | forward f => exact .forward _ trivial

end Library

end Parser

/-! ## Expressions of the library -/

mutual

/-- The expression has no functions on values, no custom parsers and no arithmetic in it. -/
def Expr.Plain : Expr → Prop
  | .map _ _ | .flatMap _ _ | .custom _ _ | .arithmetic => False
  | .many e | .many1 e | .optional e | .lookahead e | .inverted e => e.Plain
  | .named e _ | .lexeme e | .commaList e | .fix _ _ e => e.Plain
  | .seq es | .oneOf es => Expr.AllPlain es
  | .between a e b => a.Plain ∧ e.Plain ∧ b.Plain
  | .sepBy a b | .sepBy1 a b | .orElse a b | .andThen a b | .followedBy a b => a.Plain ∧ b.Plain
  | _ => True

def Expr.AllPlain : List Expr → Prop
  | [] => True
  | e :: es => e.Plain ∧ Expr.AllPlain es

end

open Build Parselet.Parser

mutual

/-- Building such an expression keeps to the library. -/
theorem Expr.build_library (limit : Limit) (env : Bindings) (e : Expr) (he : e.Plain) :
    Makes (fun _ => True) (Library limit) env (e.build limit env) (Library limit) := by
  cases e with
  | pure v => exact makes_lift fun p hp => .pure hp
  | fail m => exact makes_pure (.fail m)
  | eof => exact makes_pure .eof
  | digit => exact makes_pure (.satisfy _ _)
  | letter => exact makes_pure (.satisfy _ _)
  | alphanumeric => exact makes_pure (.satisfy _ _)
  | whitespace => exact makes_pure (.satisfy _ _)
  | integer => exact makes_pure .integer
  | skipWhitespace => exact makes_pure .skipWhitespace
  | character s => exact makes_lift fun p hp => .character hp
  | string s => exact makes_pure (.string s)
  | anycase s => exact makes_pure (.anycase s)
  | satisfy accepts m => exact makes_pure (.satisfy _ _)
  | regex source flags again names =>
    refine makes_lift fun p hp => ?_
    obtain ⟨m, rfl⟩ := exists_eq_of_compileRegex hp
    exact .regex m
  | compiled m => exact makes_pure (.regex m)
  | many e => exact (e.build_library limit env he).bind fun p => makes_pure fun hp => hp.many
  | many1 e => exact (e.build_library limit env he).bind fun p => makes_pure fun hp => hp.many1
  | optional e =>
    exact (e.build_library limit env he).bind fun p => makes_pure fun hp => hp.optional
  | lookahead e =>
    exact (e.build_library limit env he).bind fun p => makes_pure fun hp => hp.lookahead
  | inverted e =>
    exact (e.build_library limit env he).bind fun p => makes_pure fun hp => hp.inverted
  | seq es =>
    exact (Expr.buildAll_library limit env es he).bind fun ps => makes_lift fun p hp hps =>
      .seq hps hp
  | oneOf es =>
    exact (Expr.buildAll_library limit env es he).bind fun ps => makes_lift fun p hp hps =>
      .oneOf hps hp
  | between a e b =>
    refine (a.build_library limit env he.1).bind fun p => ?_
    refine (e.build_library limit env he.2.1).bind fun q => ?_
    exact (b.build_library limit env he.2.2).bind fun k => makes_pure fun hk hq hp =>
      hp.between hq hk
  | sepBy a b =>
    refine (a.build_library limit env he.1).bind fun p => ?_
    exact (b.build_library limit env he.2).bind fun q => makes_pure fun hq hp => hp.sepBy hq
  | sepBy1 a b =>
    refine (a.build_library limit env he.1).bind fun p => ?_
    exact (b.build_library limit env he.2).bind fun q => makes_pure fun hq hp => hp.sepBy1 hq
  | named e name =>
    exact (e.build_library limit env he).bind fun p => makes_pure fun hp => hp.named name
  | orElse a b =>
    refine (a.build_library limit env he.1).bind fun p => ?_
    exact (b.build_library limit env he.2).bind fun q => makes_pure fun hq hp => hp.orElse hq
  | andThen a b =>
    refine (a.build_library limit env he.1).bind fun p => ?_
    exact (b.build_library limit env he.2).bind fun q => makes_pure fun hq hp => hp.andThen hq
  | followedBy a b =>
    refine (a.build_library limit env he.1).bind fun p => ?_
    exact (b.build_library limit env he.2).bind fun q => makes_pure fun hq hp => hp.followedBy hq
  | sign => exact makes_pure .sign
  | signedInteger => exact makes_pure .signedInteger
  | decimalNumber => exact makes_pure .decimalNumber
  | unicodeEscape => exact makes_pure .unicodeEscape
  | identifier => exact makes_pure .identifier
  | quotedString quote escape escapes => exact makes_lift fun p hp => .quotedString hp
  | lexeme e => exact (e.build_library limit env he).bind fun p => makes_pure fun hp => hp.lexeme
  | commaList e =>
    exact (e.build_library limit env he).bind fun p => makes_pure fun hp => hp.commaList
  | symbol s => exact makes_pure (.symbol s)
  | ref id => exact makes_ref id
  | fix id name e => exact makes_fix (fun f _ => .forward f) fun f => e.build_library limit _ he
  | map | flatMap | custom | arithmetic => exact he.elim

theorem Expr.buildAll_library (limit : Limit) (env : Bindings) (es : List Expr)
    (hes : Expr.AllPlain es) :
    Makes (fun _ => True) (Library limit) env (Expr.buildAll limit env es)
      fun ps => ∀ p ∈ ps, Library limit p := by
  cases es with
  | nil => exact makes_pure (by simp)
  | cons e es =>
    refine (e.build_library limit env hes.1).bind fun p => ?_
    refine (Expr.buildAll_library limit env es hes.2).bind fun ps => makes_pure fun hps hp => ?_
    exact List.forall_mem_cons.2 ⟨hp, hps⟩

end

namespace Store

variable {store : Store} {limit : Limit} {p q : Parser}

/-- Every forward that a run of `p` may come to stands for a parser of the library. -/
def IsLibrary (store : Store) (limit : Limit) (p : Parser) : Prop :=
  ∀ q f, store.Reaches p q → q.body = .forward f →
    ∃ t, store.target? f = some t ∧ t.Library limit

theorem IsLibrary.of_reaches (h : store.IsLibrary limit p) (hq : store.Reaches p q) :
    store.IsLibrary limit q :=
  fun k f hk => h k f (hq.trans hk)

theorem IsLibrary.of_has (h : store.IsLibrary limit p) (hq : p.body.Has q) :
    store.IsLibrary limit q :=
  h.of_reaches (.single (.inl hq))

/-- A parser calls the same ones under all names. -/
theorem IsLibrary.of_named {name : Text} (h : store.IsLibrary limit (p.named name)) :
    store.IsLibrary limit p := by
  intro q f hq hf
  rcases ReflTransGen.cases_head hq with rfl | ⟨k, hk, hq⟩
  · exact h _ f .refl hf
  · exact h q f (.head hk hq) hf

theorem IsLibrary.of_andThen (h : store.IsLibrary limit (p.andThen q)) :
    store.IsLibrary limit p ∧ store.IsLibrary limit q :=
  ⟨h.of_has (.inl rfl), h.of_has (.inr ⟨none, .nothing, rfl⟩)⟩

theorem IsLibrary.of_followedBy (h : store.IsLibrary limit (p.followedBy q)) :
    store.IsLibrary limit p ∧ store.IsLibrary limit q := by
  refine ⟨h.of_has (.inl rfl), ?_⟩
  have hmap := h.of_has (.inr ⟨none, .nothing, rfl⟩)
  exact hmap.of_has rfl

end Store

/-- An expression without functions on values, custom parsers and arithmetic gives a parser of the
library where its names stand for such parsers. Once all forwards that this one may come to are
defined, they stand for parsers of the library too. -/
theorem Expr.library_of_build {limit : Limit} {env : Bindings} {e : Expr} {p : Parser}
    {store store' : Store} (he : e.Plain) (henv : env.All (Parser.Library limit))
    (hstore : store.All (Parser.Library limit))
    (h : (e.build limit env).run store = .ok (p, store')) :
    p.Library limit ∧
      ((∀ q f, store'.Reaches p q → q.body = .forward f → store'.target? f ≠ none) →
        store'.IsLibrary limit p) := by
  obtain ⟨hp, hstore'⟩ := (e.build_library limit env he h).2 (fun _ _ => trivial) henv hstore
  refine ⟨hp, fun hdefined q f hq hf => ?_⟩
  obtain ⟨t, ht⟩ := Option.ne_none_iff_exists'.1 (hdefined q f hq hf)
  exact ⟨t, ht, hstore' f t ht⟩

namespace Parser

variable {store : Store} {limit : Limit} {p q k : Parser}

theorem fits_of_pure {v : Value} (h : Parser.pure limit v = .ok k) : v.fits limit = true := by
  obtain ⟨t, ht, -⟩ := except_bind_eq_ok_iff.1 h
  exact Value.exists_written?_iff.1 ⟨t, ht⟩

theorem exists_eq_of_character? {t : Text} (h : character? t = .ok k) : ∃ c, k = character c := by
  unfold character? at h
  split at h
  · cases h
    exact ⟨_, rfl⟩
  · cases h

theorem exists_eq_of_quotedStringOf {quote escape : Text} {escapes : Escapes}
    (h : quotedStringOf quote escape escapes = .ok k) :
    ∃ q e, k = quotedString q e escapes := by
  unfold quotedStringOf at h
  split at h
  · cases h
    exact ⟨_, _, rfl⟩
  · cases h

theorem eq_of_atLeastTwo {combine : List Parser → Parser} {ps : List Parser}
    (h : atLeastTwo combine ps = .ok k) : k = combine ps := by
  unfold atLeastTwo at h
  split at h
  · cases h
  · cases h
    rfl

/-- Parsers of the library are never given up, whatever the number of calls and whether or not they
are logged. Recursion is gone through by the depth of calls. -/
theorem Library.yields (hp : Library limit p) (hstore : store.IsLibrary limit p) {s : Settings}
    (hlimit : s.limit = limit) (n : Nat) : Yields store s n (fun _ => True) p := by
  induction n generalizing p with
  | zero => exact fun d hd => absurd hd (Nat.not_lt_zero d)
  | succ n ihn =>
    induction hp with
    | pure h =>
      obtain ⟨name, rfl⟩ := exists_eq_of_pure h
      exact yields_pure trivial (hlimit ▸ fits_of_pure h)
    | fail m => exact yields_fail m
    | eof => exact yields_eof trivial
    | character h =>
      obtain ⟨c, rfl⟩ := exists_eq_of_character? h
      exact yields_character trivial
    | satisfy accepts m => exact yields_satisfy fun _ _ => trivial
    | string t => exact yields_string trivial
    | anycase t => exact yields_anycase fun _ _ _ => trivial
    | regex m => exact yields_regex fun _ => trivial
    | skipWhitespace => exact yields_skipWhitespace
    | integer => exact yields_integer.mono fun _ _ _ => trivial
    | signedInteger => exact yields_signedInteger.mono fun _ _ _ => trivial
    | decimalNumber => exact yields_decimalNumber
    | unicodeEscape => exact yields_unicodeEscape.mono fun _ _ _ => trivial
    | identifier => exact yields_identifier.mono fun _ _ _ => trivial
    | quotedString h =>
      obtain ⟨q, e, rfl⟩ := exists_eq_of_quotedStringOf h
      exact (yields_quotedString q e _).mono fun _ _ _ => trivial
    | named name _ ih => exact (ih hstore.of_named).named name
    | orElse _ _ ih ih' =>
      exact Yields.orElse (ih (hstore.of_has (.inl rfl))) (ih' (hstore.of_has (.inr rfl)))
    | andThen _ _ ih ih' => exact (ih hstore.of_andThen.1).andThen (ih' hstore.of_andThen.2)
    | followedBy _ _ ih ih' =>
      exact (ih hstore.of_followedBy.1).followedBy (ih' hstore.of_followedBy.2)
    | many _ ih => exact Yields.many (ih (hstore.of_has rfl)) fun _ _ => trivial
    | @many1 p _ ih =>
      have hmany : store.IsLibrary limit p.many := hstore.of_has rfl
      have hyields : Yields store s (n + 1) (fun _ => True) p.many :=
        Yields.many (ih (hmany.of_has rfl)) fun _ _ => trivial
      exact (Yields.nonempty hyields).mono fun _ _ _ => trivial
    | optional _ ih => exact Yields.optional (ih (hstore.of_has rfl)) trivial
    | sepBy _ _ ih ih' =>
      exact Yields.sepBy (ih (hstore.of_has (.inl rfl))) (ih' (hstore.of_has (.inr rfl)))
        fun _ _ => trivial
    | @sepBy1 p q _ _ ih ih' =>
      have hsepBy : store.IsLibrary limit (p.sepBy q) := hstore.of_has rfl
      have hyields : Yields store s (n + 1) (fun _ => True) (p.sepBy q) :=
        Yields.sepBy (ih (hsepBy.of_has (.inl rfl))) (ih' (hsepBy.of_has (.inr rfl)))
          fun _ _ => trivial
      exact (Yields.nonempty hyields).mono fun _ _ _ => trivial
    | @seq ps k _ h ih =>
      cases eq_of_atLeastTwo h
      have hps : List.Forall₂ (fun p Q => Yields store s (n + 1) Q p) ps
          (ps.map fun _ _ => True) :=
        List.forall₂_map_right_iff.2 (List.forall₂_same.2 fun p hp => ih p hp (hstore.of_has hp))
      exact Yields.seq hps fun _ _ => trivial
    | @oneOf ps k _ h ih =>
      cases eq_of_atLeastTwo h
      exact Yields.oneOf fun p hp => ih p hp (hstore.of_has hp)
    | lookahead _ ih => exact Yields.lookahead (ih (hstore.of_has rfl))
    | inverted _ ih => exact Yields.inverted (ih (hstore.of_has rfl)) trivial
    | forward f =>
      obtain ⟨t, htarget, ht⟩ := hstore _ f .refl rfl
      have hcalled : store.IsLibrary limit t :=
        hstore.of_reaches (.single (.inr ⟨f, rfl, htarget⟩))
      exact (ihn ht hcalled).forward htarget

theorem Library.customsWithin (hp : Library limit p) (hstore : store.IsLibrary limit p) :
    store.CustomsWithin p := by
  refine Store.customsWithin_of_built hp.built fun q f t hq hf htarget => ?_
  obtain ⟨t', htarget', ht'⟩ := hstore q f hq hf
  rw [htarget] at htarget'
  cases htarget'
  exact ht'.built

theorem Library.safe_runTo (hp : Library limit p) (hstore : store.IsLibrary limit p) {s : Settings}
    (hlimit : s.limit = limit) (d : Nat) (src : Text) :
    (runTo store s d p src).Safe (Result.Fits limit) := by
  refine ((hp.yields hstore hlimit d).call (Nat.le_refl d) src).mono fun r hr => ?_
  cases r with
  | success v rest => exact hlimit ▸ hr.2
  | failure m s => trivial

/-- Logging changes nothing about how a run of a parser of the library ends. -/
theorem Library.ending_debug (hp : Library limit p) (hstore : store.IsLibrary limit p) (d : Nat)
    (src : Text) :
    (runTo store { limit, debug := true } d p src).ending =
      (runTo store { limit } d p src).ending := by
  rcases stopsOrAlike_debug store limit d p src with ⟨_, ⟨bound, -, rfl⟩, hstopped⟩ | halike
  · have hsafe := hp.safe_runTo hstore (s := { limit, debug := true }) rfl d src
    exact absurd hstopped (hsafe.not_raised _)
  · exact halike

/-- Without left recursion, every run of a parser of the library ends with a result, with debugging
on or off, as soon as calls may be nested deeply enough. The value of a success can be written under
the limit, and all that the tokens convert is in the form that the conversion wants. Parsers of the
library are what expressions without functions on values, custom parsers and arithmetic give. -/
theorem library_always_answers (hp : Library limit p) (hstore : store.IsLibrary limit p)
    (hleft : ¬ store.LeftRecursive p) :
    (∀ src, ∃ r d, r.Fits limit ∧ ∀ debug k, d ≤ k →
        (p.parse store { limit, debug, depth := k } src).ending = .value r) ∧
      (∀ q A, Converts q A → ∀ s src v rest,
        (q.parse store s src).ending = .value (.success v rest) → A v) ∧
      ∀ (env : Bindings) (e : Expr) (store₀ store' : Store) (k : Parser), e.Plain →
        env.All (Library limit) → store₀.All (Library limit) →
          (e.build limit env).run store₀ = .ok (k, store') →
            k.Library limit ∧
              ((∀ q f, store'.Reaches k q → q.body = .forward f → store'.target? f ≠ none) →
                store'.IsLibrary limit k) := by
  refine ⟨?_, ?_, fun env e store₀ store' k he henv hstore₀ hbuild =>
    Expr.library_of_build he henv hstore₀ hbuild⟩
  · intro src
    have hends := run_ends (hp.customsWithin hstore) hleft limit src
    obtain ⟨d, hd⟩ := run_eventually store limit p src
    have hsafe := hp.safe_runTo hstore (s := { limit }) rfl d src
    cases hrun : (run store limit p src).ending with
    | value r =>
      refine ⟨r, d, hsafe.of_value ((hd d (Nat.le_refl d)).trans hrun), fun debug k hk => ?_⟩
      rw [parse, runTo_with_depth { limit, debug }]
      cases debug with
      | false => exact (hd k hk).trans hrun
      | true => exact (hp.ending_debug hstore k src).trans ((hd k hk).trans hrun)
    | raised fault => exact absurd ((hd d (Nat.le_refl d)).trans hrun) (hsafe.not_raised fault)
    | unfinished => exact absurd hrun hends.not_unfinished
  · intro q A hq s src v rest hv
    have hyields : Yields store s s.depth A q := hq.yields
    exact ((hyields.call (Nat.le_refl _) src).of_value hv).1

end Parser

/-! ## Nested parentheses -/

namespace Nest

def nest : Forward := ⟨0, "nest"⟩

def number : Parser := .mk "pure(42)" (.pure (.int 42))

def opening : Parser := .character '('

def closing : Parser := .character ')'

def group : Parser := .seq [opening, .forward nest, closing]

/-- A number, in any number of parentheses. -/
def nested : Parser := group.orElse number

def store : Store := ⟨[some nested]⟩

theorem calls_forward {q : Parser} : store.Calls (.forward nest) q ↔ q = nested := by
  have htarget : store.target? nest = some nested := rfl
  simp [Store.Calls, Body.Has, Parser.forward, Parser.body, htarget, eq_comm]

theorem calls_nested {q : Parser} : store.Calls nested q ↔ q = group ∨ q = number := by
  simp [Store.Calls, Body.Has, nested, Parser.orElse, Parser.body]

theorem calls_group {q : Parser} :
    store.Calls group q ↔ q = opening ∨ q = .forward nest ∨ q = closing := by
  simp [Store.Calls, Body.Has, group, Parser.seq, Parser.body]

theorem reaches_nest {q : Parser} (h : store.Reaches (.forward nest) q) :
    q = .forward nest ∨ q = nested ∨ q = group ∨
      q = number ∨ q = opening ∨ q = closing := by
  induction h with
  | refl => simp
  | @tail p q _ hcall ih =>
    rcases ih with rfl | rfl | rfl | rfl | rfl | rfl
    · rw [calls_forward] at hcall
      simp [hcall]
    · rw [calls_nested] at hcall
      rcases hcall with rfl | rfl <;> simp
    · rw [calls_group] at hcall
      rcases hcall with rfl | rfl | rfl <;> simp
    · rcases hcall with h | ⟨f, ⟨⟩, -⟩
      exact h.elim
    · rcases hcall with h | ⟨f, ⟨⟩, -⟩
      exact h.elim
    · rcases hcall with h | ⟨f, ⟨⟩, -⟩
      exact h.elim

theorem library_nested (limit : Limit) (h : limit.allows 2 = true) : nested.Library limit := by
  have hnumber : Parser.pure limit (.int 42) = .ok number := by
    rw [Parser.pure, Value.written?_of_fits (Value.fits_int_iff.2 h)]
    rfl
  have hopening : Parser.character? "(" = .ok opening := rfl
  have hclosing : Parser.character? ")" = .ok closing := rfl
  have hparts : ∀ p ∈ [opening, .forward nest, closing], Parser.Library limit p := by
    simp only [List.forall_mem_cons]
    exact ⟨.character hopening, .forward nest, .character hclosing, by simp⟩
  exact (Parser.Library.seq hparts rfl).orElse (.pure hnumber)

/-- A parenthesis has to be read before the forward is called. -/
theorem callsFirst_group {q : Parser} (h : store.CallsFirst group q) : q = opening := by
  rcases h with ⟨before, after, hps, hbefore⟩ | ⟨f, ⟨⟩, -⟩
  cases before with
  | nil => exact (List.cons.inj hps).1.symm
  | cons p before =>
    obtain ⟨rfl, -⟩ := List.cons.inj hps
    cases hbefore opening (by simp)

theorem not_leftRecursive : ¬ store.LeftRecursive (.forward nest) := by
  refine Store.not_leftRecursive_of_closed
    (T := fun q => q = nested ∨ q = group ∨ q = number ∨ q = opening)
    (fun q f hq hf k hcall => ?_) (fun q k hq hcall => ?_) fun q f hq hf => ?_
  · rcases reaches_nest hq with rfl | rfl | rfl | rfl | rfl | rfl
    · exact .inl (calls_forward.1 hcall.calls)
    all_goals cases hf
  · rcases hq with rfl | rfl | rfl | rfl
    · rcases calls_nested.1 hcall.calls with rfl | rfl <;> simp
    · simp [callsFirst_group hcall]
    · rcases hcall with h | ⟨f, ⟨⟩, -⟩
      exact h.elim
    · rcases hcall with h | ⟨f, ⟨⟩, -⟩
      exact h.elim
  · rcases hq with rfl | rfl | rfl | rfl <;> cases hf

theorem isLibrary (limit : Limit) (h : limit.allows 2 = true) :
    store.IsLibrary limit (.forward nest) := by
  intro q f hq hf
  rcases reaches_nest hq with rfl | rfl | rfl | rfl | rfl | rfl
  · cases hf
    exact ⟨nested, rfl, library_nested limit h⟩
  all_goals cases hf

end Nest

/-- An answer where the parentheses are not closed, with debugging on or off. -/
theorem library_always_answers_nest :
    ∃ r d, r.Fits (some 640) ∧ ∀ debug k, d ≤ k →
      ((Parser.forward Nest.nest).parse Nest.store { limit := some 640, debug, depth := k }
        "(()").ending = .value r :=
  (Parser.library_always_answers (.forward Nest.nest) (Nest.isLibrary (some 640) rfl)
    Nest.not_leftRecursive).1 "(()"

end Parselet
