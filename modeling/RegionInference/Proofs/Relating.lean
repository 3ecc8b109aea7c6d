import Mathlib
import RegionInference.Proofs.FirstOccurrences
import RegionInference.Proofs.Shapes

/-!
# Relating types asks for exactly what subtyping needs

`Ty.Related order variance s t` says by rules that `s` is related to `t` at a variance. Every rule
is there for all variances, and what stands inside a type is related at the composed variance. So
invariance and bivariance are passed on to everything inside: under a mutable reference also what a
declaration does not care about has to agree, and what is bivariant has to have the same shape. The
rules of `Ty.SubAt` ask for less there.

Where relating two types succeeds, its pairs are in order iff the types are related
(`Ty.forall_relatePairs_iff`). The proof goes through both types at once; one lemma inverts the
rules for each kind of type. With reflexive orders this is not affected by leaving out repetitions
and trivial pairs (`Ty.mem_relate`). That it succeeds iff the shapes are equal is `Ty.ends_relate`.
-/

namespace RegionInference.Ty

/-- A relation holds at each parameter between the arguments for it. -/
def Along (rel : AdtParam → α → α → Prop) (params : List AdtParam) (as bs : List α) : Prop :=
  ∀ (i : Nat) (param : AdtParam) (a b : α), params[i]? = some param → as[i]? = some a →
    bs[i]? = some b → rel param a b

/-- A type is related to another at a variance, given the order of the lifetimes: `order a b` says
that `a` lasts at least as long as `b`. -/
inductive Related (order : String → String → Prop) : Variance → Ty → Ty → Prop where
  /-- Types without lifetimes are related to themselves. -/
  | scalar (variance : Variance) (name : String) :
      Related order variance (.scalar name) (.scalar name)
  /-- What a shared reference refers to is where the reference is. -/
  | shared {variance : Variance} {a b : String} {s t : Ty} : variance.At order a b →
      Related order variance s t → Related order variance (.ref a false s) (.ref b false t)
  /-- What a mutable reference refers to is in an invariant position there. -/
  | mutable {variance : Variance} {a b : String} {s t : Ty} : variance.At order a b →
      Related order (variance.compose .invariant) s t →
        Related order variance (.ref a true s) (.ref b true t)
  /-- Instances of one declaration are related argument by argument, as it declares. -/
  | adt {variance : Variance} {decl : AdtDecl} {as bs : List String} {args args' : List Ty} :
      (∀ (i : Nat) (param : AdtParam) (a b : String), decl.lifetimeParams[i]? = some param →
        as[i]? = some a → bs[i]? = some b → (variance.compose param.variance).At order a b) →
      (∀ (i : Nat) (param : AdtParam) (s t : Ty), decl.typeParams[i]? = some param →
        args[i]? = some s → args'[i]? = some t →
          Related order (variance.compose param.variance) s t) →
      Related order variance (.adt decl as args) (.adt decl bs args')

variable {order : String → String → Prop} {variance : Variance}

/-! ### The rules, read backwards -/

/-- What is covariant stays in the position it stands in. -/
theorem compose_covariant (variance : Variance) : variance.compose .covariant = variance := by
  cases variance <;> rfl

/-- References are related iff their lifetimes are, and what they refer to at the variance of a
reference. -/
theorem related_ref_iff {a b : String} {mutable : Bool} {s t : Ty} :
    Related order variance (.ref a mutable s) (.ref b mutable t) ↔
      variance.At order a b ∧ Related order (variance.compose (referentVariance mutable)) s t := by
  cases mutable with
  | false =>
    rw [show referentVariance false = .covariant from rfl, compose_covariant]
    constructor
    · intro h
      cases h with
      | shared hab hst => exact ⟨hab, hst⟩
    · exact fun h => .shared h.1 h.2
  | true =>
    constructor
    · intro h
      cases h with
      | mutable hab hst => exact ⟨hab, hst⟩
    · exact fun h => .mutable h.1 h.2

/-- Instances of one declaration are related iff their arguments are, each at the variance of its
parameter. -/
theorem related_adt_iff {decl : AdtDecl} {as bs : List String} {args args' : List Ty} :
    Related order variance (.adt decl as args) (.adt decl bs args') ↔
      Along (fun param => (variance.compose param.variance).At order) decl.lifetimeParams as bs ∧
      Along (fun param => Related order (variance.compose param.variance)) decl.typeParams
        args args' := by
  constructor
  · intro h
    cases h with
    | adt hlifetimes hargs => exact ⟨hlifetimes, hargs⟩
  · exact fun h => .adt h.1 h.2

/-- Where parameters or arguments have run out, nothing is asked for, and no pairs are. -/
theorem forall_nil_iff_along {rel : AdtParam → α → α → Prop} {params : List AdtParam}
    {as bs : List α} (h : params = [] ∨ as = [] ∨ bs = []) :
    (∀ pair ∈ ([] : List (String × String)), order pair.1 pair.2) ↔ Along rel params as bs := by
  refine iff_of_true (fun _ hpair => absurd hpair List.not_mem_nil) ?_
  intro i param a b hparam ha hb
  rcases h with rfl | rfl | rfl
  · cases hparam
  · cases ha
  · cases hb

/-- A relation along one more parameter. -/
theorem along_cons {rel : AdtParam → α → α → Prop} {param : AdtParam} {params : List AdtParam}
    {a b : α} {as bs : List α} :
    Along rel (param :: params) (a :: as) (b :: bs) ↔ rel param a b ∧ Along rel params as bs := by
  constructor
  · intro h
    exact ⟨h 0 param a b rfl rfl rfl, fun i => h (i + 1)⟩
  · rintro ⟨hfirst, hrest⟩ i
    cases i with
    | zero =>
      rintro param' a' b' ⟨⟩ ⟨⟩ ⟨⟩
      exact hfirst
    | succ i => exact hrest i

/-! ### Pairs in order -/

/-- The pairs of two lifetimes are in order iff the lifetimes are, at the position. -/
theorem forall_outlivesAt_iff {a b : String} :
    (∀ pair ∈ outlivesAt a b variance, order pair.1 pair.2) ↔ variance.At order a b := by
  cases variance <;> simp [outlivesAt, Variance.At]

/-- The pairs that come from lifetime arguments are in order iff the arguments are related at the
variances of their parameters. -/
theorem forall_relateLifetimes_iff (params : List AdtParam) (as bs : List String) :
    (∀ pair ∈ relateLifetimes variance params as bs, order pair.1 pair.2) ↔
      Along (fun param => (variance.compose param.variance).At order) params as bs := by
  fun_induction relateLifetimes variance params as bs with
  | case1 param params a as b bs ih =>
    rw [List.forall_mem_append, forall_outlivesAt_iff, ih, along_cons]
  | case2 params as bs hnil =>
    apply forall_nil_iff_along
    cases params with
    | nil => exact .inl rfl
    | cons param params =>
      cases as with
      | nil => exact .inr (.inl rfl)
      | cons a as =>
        cases bs with
        | nil => exact .inr (.inr rfl)
        | cons b bs => exact (hnil param params a as b bs rfl rfl rfl).elim

mutual

/-- Where relating types succeeds, its pairs are in order iff the types are related. -/
theorem forall_relatePairs_iff (variance : Variance) :
    ∀ (s t : Ty) {pairs : List (String × String)}, relatePairs variance s t = .ok pairs →
      ((∀ pair ∈ pairs, order pair.1 pair.2) ↔ Related order variance s t)
  | .scalar a, t, pairs, h => by
    cases t with
    | scalar b =>
      rw [relatePairs] at h
      split at h
      · next heq =>
        subst heq
        cases h
        exact iff_of_true (fun _ hpair => absurd hpair List.not_mem_nil) (.scalar variance a)
      · cases h
    | ref b mutable referent => cases h
    | adt decl lifetimes args => cases h
  | .ref a mutable s, t, pairs, h => by
    cases t with
    | scalar b => cases h
    | ref b mutable' t =>
      rw [relatePairs] at h
      split at h
      · next heq =>
        subst heq
        obtain ⟨inside, hinside, h⟩ := exists_of_bind_eq_ok h
        cases h
        rw [List.forall_mem_append, forall_outlivesAt_iff, related_ref_iff,
          forall_relatePairs_iff _ s t hinside]
      · cases h
    | adt decl lifetimes args => cases h
  | .adt decl as args, t, pairs, h => by
    cases t with
    | scalar b => cases h
    | ref b mutable referent => cases h
    | adt decl' bs args' =>
      rw [relatePairs] at h
      split at h
      · next heq =>
        subst heq
        obtain ⟨inside, hinside, h⟩ := exists_of_bind_eq_ok h
        cases h
        rw [List.forall_mem_append, forall_relateLifetimes_iff, related_adt_iff,
          forall_relateArgs_iff variance args hinside]
      · cases h

/-- So it is for lists of type arguments, parameter by parameter. -/
theorem forall_relateArgs_iff (variance : Variance) :
    ∀ (args : List Ty) {params : List AdtParam} {args' : List Ty} {pairs : List (String × String)},
      relateArgs variance params args args' = .ok pairs →
      ((∀ pair ∈ pairs, order pair.1 pair.2) ↔
        Along (fun param => Related order (variance.compose param.variance)) params args args')
  | [], params, args', pairs, h => by
    have hnone : pairs = [] := by
      cases params <;> cases h <;> rfl
    subst hnone
    exact forall_nil_iff_along (.inr (.inl rfl))
  | s :: args, [], args', pairs, h => by
    cases h
    exact forall_nil_iff_along (.inl rfl)
  | s :: args, param :: params, [], pairs, h => by
    cases h
    exact forall_nil_iff_along (.inr (.inr rfl))
  | s :: args, param :: params, t :: args', pairs, h => by
    rw [relateArgs] at h
    obtain ⟨inside, hinside, h⟩ := exists_of_bind_eq_ok h
    obtain ⟨others, hothers, h⟩ := exists_of_bind_eq_ok h
    cases h
    rw [List.forall_mem_append, forall_relatePairs_iff _ s t hinside,
      forall_relateArgs_iff variance args hothers, along_cons]

end

/-- What is returned is what relating asks for, without the trivial pairs. -/
theorem mem_relate {s t : Ty} {pairs : List (String × String)}
    (h : relate variance s t = .ok pairs) : ∃ all, relatePairs variance s t = .ok all ∧
      ∀ pair, pair ∈ pairs ↔ pair ∈ all ∧ pair.1 ≠ pair.2 := by
  obtain ⟨all, hall, rfl⟩ := exists_of_map_eq_ok h
  refine ⟨all, hall, fun pair => ?_⟩
  rw [List.mem_eraseDups, List.mem_filter, bne_iff_ne]

/-- No pair is asked for twice. -/
theorem nodup_of_relate {s t : Ty} {pairs : List (String × String)}
    (h : relate variance s t = .ok pairs) : pairs.Nodup := by
  obtain ⟨all, -, rfl⟩ := exists_of_map_eq_ok h
  exact nodup_eraseDups _

/-- For a reflexive order, what is returned is in order iff the types are related. -/
theorem forall_relate_iff (hrefl : ∀ a, order a a) {s t : Ty} {pairs : List (String × String)}
    (h : relate variance s t = .ok pairs) :
    (∀ pair ∈ pairs, order pair.1 pair.2) ↔ Related order variance s t := by
  obtain ⟨all, hall, hmem⟩ := mem_relate h
  rw [← forall_relatePairs_iff variance s t hall]
  constructor
  · intro hpairs pair hpair
    by_cases htrivial : pair.1 = pair.2
    · rw [htrivial]
      exact hrefl pair.2
    · exact hpairs pair ((hmem pair).2 ⟨hpair, htrivial⟩)
  · intro hpairs pair hpair
    exact hpairs pair ((hmem pair).1 hpair).1

/-- **Relating types is sound and complete.** For well-formed types and any variance, relating them
is a mismatch iff their shapes differ. Otherwise it returns pairs of different lifetimes, each pair
once, and for every reflexive order of the lifetimes these are in order iff the types are related at
the variance. -/
theorem relate_sound_and_complete (variance : Variance) (s t : Ty) (hs : s.WellFormed)
    (ht : t.WellFormed) :
    ((∃ sub sup, relate variance s t = .error (.mismatch sub sup)) ↔ s.shape ≠ t.shape) ∧
    (s.shape = t.shape → ∃ pairs, relate variance s t = .ok pairs ∧ pairs.Nodup ∧
      (∀ pair ∈ pairs, pair.1 ≠ pair.2) ∧
      ∀ order : String → String → Prop, (∀ a, order a a) →
        ((∀ pair ∈ pairs, order pair.1 pair.2) ↔ Related order variance s t)) := by
  have hends := ends_relate variance s t
  cases hresult : relate variance s t with
  | error error =>
    rw [hresult] at hends
    obtain ⟨hdiffer, sub, sup, rfl⟩ := hends
    exact ⟨iff_of_true ⟨sub, sup, rfl⟩ hdiffer, fun hsame => absurd hsame hdiffer⟩
  | ok pairs =>
    rw [hresult] at hends
    have hsame : s.shape = t.shape := hends.1 ⟨hs, ht⟩
    constructor
    · refine iff_of_false ?_ fun hdiffer => hdiffer hsame
      rintro ⟨sub, sup, herror⟩
      cases herror
    · intro _
      obtain ⟨all, -, hmem⟩ := mem_relate hresult
      refine ⟨pairs, rfl, nodup_of_relate hresult, fun pair hpair => ((hmem pair).1 hpair).2, ?_⟩
      intro order hrefl
      exact forall_relate_iff hrefl hresult

end RegionInference.Ty

namespace RegionInference

namespace Sample

/-- A declaration with a contravariant lifetime, that does not care about its type argument. -/
def sink : AdtDecl where
  name := "Sink"
  lifetimeParams := [{ name := "x", variance := .contravariant }]
  typeParams := [{ name := "T", variance := .bivariant }]

/-- A mutable reference to an instance that holds a shared one. -/
def sinkRef (outer middle inner : String) : Ty :=
  .ref outer true (.adt sink [middle] [.ref inner false (.scalar "i32")])

end Sample

/-- Under the mutable reference both directions are asked for, also of the lifetime that the
declaration does not care about; the lifetime of the reference itself is turned round. -/
theorem Ty.relate_sinkRef :
    (Sample.sinkRef "a" "b" "c").WellFormed ∧ (Sample.sinkRef "p" "b" "r").WellFormed ∧
      (Sample.sinkRef "a" "b" "c").shape = (Sample.sinkRef "p" "b" "r").shape ∧
      relate .contravariant (Sample.sinkRef "a" "b" "c") (Sample.sinkRef "p" "b" "r") =
        .ok [("p", "a"), ("c", "r"), ("r", "c")] ∧
      ∀ order : String → String → Prop, (∀ a, order a a) →
        ((∀ pair ∈ [("p", "a"), ("c", "r"), ("r", "c")], order pair.1 pair.2) ↔
          Related order .contravariant (Sample.sinkRef "a" "b" "c")
            (Sample.sinkRef "p" "b" "r")) := by
  have hwell : ∀ outer middle inner, (Sample.sinkRef outer middle inner).WellFormed :=
    fun _ _ _ => ⟨rfl, rfl, trivial, trivial⟩
  have hrelate : relate .contravariant (Sample.sinkRef "a" "b" "c") (Sample.sinkRef "p" "b" "r") =
      .ok [("p", "a"), ("c", "r"), ("r", "c")] := rfl
  obtain ⟨pairs, hpairs, -, -, hiff⟩ :=
    (relate_sound_and_complete .contravariant _ _ (hwell "a" "b" "c") (hwell "p" "b" "r")).2 rfl
  rw [hrelate] at hpairs
  cases hpairs
  exact ⟨hwell _ _ _, hwell _ _ _, rfl, hrelate, hiff⟩

end RegionInference
