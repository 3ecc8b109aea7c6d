import Mathlib
import RegionInference.Proofs.Analysis

/-!
# The solved regions respect subtyping

Given an order of lifetimes, `Ty.SubAt order variance s t` says by rules that `s` is related to `t`
at a variance: a reference is covariant in its lifetime, a shared one covariant and a mutable one
invariant in what it refers to, an instance follows its declaration, contravariance turns the
relation round, invariance asks for both directions and bivariance for nothing.

Relating two types gives pairs of lifetimes, and where each pair is in order the types are related
(`Ty.subAt_of_relatePairs`). The pairs are computed with composed variances, while the rules know no
composition; `Variance.At.of_compose` is the bridge. Together with what an analysis has established
this gives the main result: from the point after an assignment on, the type of what is stored is a
subtype of the type of the place, and so for the arguments and results of calls and for
obligations (`Body.regions_respect_subtyping`).
-/

namespace RegionInference

namespace Variance

/-- A relation at a position: as it is, turned round, both ways, or not at all. -/
def At (variance : Variance) (rel : α → α → Prop) (a b : α) : Prop :=
  match variance with
  | .covariant => rel a b
  | .contravariant => rel b a
  | .invariant => rel a b ∧ rel b a
  | .bivariant => True

/-- Whether a position asks for the relation as it is. -/
def forward : Variance → Bool
  | .covariant | .invariant => true
  | .contravariant | .bivariant => false

/-- Whether a position asks for the relation turned round. -/
def backward : Variance → Bool
  | .contravariant | .invariant => true
  | .covariant | .bivariant => false

variable {variance inner : Variance} {rel : α → α → Prop} {a b : α}

/-- Relating at a variance is relating in the directions that it asks for. -/
theorem at_iff : variance.At rel a b ↔
    (variance.forward = true → rel a b) ∧ (variance.backward = true → rel b a) := by
  cases variance <;> simp [At, forward, backward]

/-- What is related at a variance is related by any weaker relation. -/
theorem At.imp {rel' : α → α → Prop} (h : variance.At rel a b) (himp : ∀ a b, rel a b → rel' a b) :
    variance.At rel' a b := by
  rw [at_iff] at h ⊢
  exact ⟨fun hforward => himp a b (h.1 hforward), fun hbackward => himp b a (h.2 hbackward)⟩

/-- What holds at a composed position holds at the inner position at the outer one. -/
theorem At.of_compose (h : (variance.compose inner).At rel a b) :
    variance.At (inner.At rel) a b := by
  cases variance <;> cases inner <;> simp_all [At, compose]

end Variance

namespace Ty

/-! ### Subtyping by rules -/

/-- A type is related to another at a variance, given the order of the lifetimes: `order a b` says
that `a` lasts at least as long as `b`. -/
inductive SubAt (order : String → String → Prop) : Variance → Ty → Ty → Prop where
  /-- Types without lifetimes are related to themselves. -/
  | scalar (name : String) : SubAt order .covariant (.scalar name) (.scalar name)
  /-- A shared reference is covariant in what it refers to. -/
  | shared {a b : String} {s t : Ty} : order a b → SubAt order .covariant s t →
      SubAt order .covariant (.ref a false s) (.ref b false t)
  /-- A mutable reference is invariant in what it refers to. -/
  | mutable {a b : String} {s t : Ty} : order a b → SubAt order .invariant s t →
      SubAt order .covariant (.ref a true s) (.ref b true t)
  /-- Instances of one declaration are related argument by argument, as it declares. -/
  | adt {decl : AdtDecl} {as bs : List String} {args args' : List Ty} :
      (∀ (i : Nat) (param : AdtParam) (a b : String), decl.lifetimeParams[i]? = some param →
        as[i]? = some a → bs[i]? = some b → param.variance.At order a b) →
      (∀ (i : Nat) (param : AdtParam) (s t : Ty), decl.typeParams[i]? = some param →
        args[i]? = some s → args'[i]? = some t → SubAt order param.variance s t) →
      SubAt order .covariant (.adt decl as args) (.adt decl bs args')
  /-- Contravariance turns the relation round. -/
  | contravariant {s t : Ty} : SubAt order .covariant t s → SubAt order .contravariant s t
  /-- Invariance asks for both directions. -/
  | invariant {s t : Ty} : SubAt order .covariant s t → SubAt order .covariant t s →
      SubAt order .invariant s t
  /-- Bivariance asks for nothing. -/
  | bivariant (s t : Ty) : SubAt order .bivariant s t

variable {order : String → String → Prop} {variance inner : Variance}

/-- The relation at a variance is the covariant one at that position. -/
theorem subAt_iff {s t : Ty} :
    SubAt order variance s t ↔ variance.At (SubAt order .covariant) s t := by
  cases variance with
  | covariant => exact Iff.rfl
  | contravariant =>
    constructor
    · intro h
      cases h with
      | contravariant h => exact h
    · exact .contravariant
  | invariant =>
    constructor
    · intro h
      cases h with
      | invariant hforward hbackward => exact ⟨hforward, hbackward⟩
    · exact fun h => .invariant h.1 h.2
  | bivariant => exact ⟨fun _ => trivial, fun _ => .bivariant s t⟩

/-- Types related at a composed position are related at the inner one, at the outer position. -/
theorem SubAt.of_compose {s t : Ty} (h : SubAt order (variance.compose inner) s t) :
    variance.At (SubAt order inner) s t :=
  (subAt_iff.1 h).of_compose.imp fun _ _ => subAt_iff.2

/-- References are related in their lifetimes and in what they refer to. -/
theorem SubAt.ref {a b : String} {s t : Ty} {mutable : Bool} (hab : order a b)
    (hst : SubAt order (referentVariance mutable) s t) :
    SubAt order .covariant (.ref a mutable s) (.ref b mutable t) := by
  cases mutable with
  | false => exact .shared hab hst
  | true => exact .mutable hab hst

/-! ### What relating types asks for -/

/-- Lifetimes whose pairs are in order are in order at the position. -/
theorem at_of_outlivesAt {a b : String} (h : ∀ pair ∈ outlivesAt a b variance,
    order pair.1 pair.2) : variance.At order a b := by
  cases variance <;> simp_all [outlivesAt, Variance.At]

/-- Lists of lifetime arguments whose pairs are in order are in order parameter by parameter. -/
theorem at_of_relateLifetimes {params : List AdtParam} {as bs : List String}
    (h : ∀ pair ∈ relateLifetimes variance params as bs, order pair.1 pair.2) {i : Nat}
    {param : AdtParam} {a b : String} (hparam : params[i]? = some param) (ha : as[i]? = some a)
    (hb : bs[i]? = some b) : variance.At (param.variance.At order) a b := by
  induction params generalizing as bs i with
  | nil => simp at hparam
  | cons first params ih =>
    cases as with
    | nil => simp at ha
    | cons a' as =>
      cases bs with
      | nil => simp at hb
      | cons b' bs =>
        rw [relateLifetimes] at h
        cases i with
        | zero =>
          obtain rfl : first = param := by simpa using hparam
          obtain rfl : a' = a := by simpa using ha
          obtain rfl : b' = b := by simpa using hb
          refine (at_of_outlivesAt fun pair hpair => ?_).of_compose
          exact h pair (List.mem_append_left _ hpair)
        | succ i =>
          rw [List.getElem?_cons_succ] at hparam ha hb
          exact ih (fun pair hpair => h pair (List.mem_append_right _ hpair)) hparam ha hb

mutual

/-- Types whose pairs are in order are related. -/
theorem subAt_of_relatePairs (variance : Variance) : ∀ (s t : Ty) {pairs : List (String × String)},
    relatePairs variance s t = .ok pairs → (∀ pair ∈ pairs, order pair.1 pair.2) →
      SubAt order variance s t
  | .scalar a, t, pairs, h, _ => by
    cases t with
    | scalar b =>
      rw [relatePairs] at h
      split at h
      · next heq =>
        subst heq
        exact subAt_iff.2 (Variance.at_iff.2 ⟨fun _ => .scalar a, fun _ => .scalar a⟩)
      · cases h
    | ref b mutable referent => cases h
    | adt decl lifetimes args => cases h
  | .ref a mutable s, t, pairs, h, hpairs => by
    cases t with
    | scalar b => cases h
    | ref b mutable' t =>
      rw [relatePairs] at h
      split at h
      · next heq =>
        subst heq
        obtain ⟨inside, hinside, h⟩ := exists_of_bind_eq_ok h
        cases h
        have hab : variance.At order a b :=
          at_of_outlivesAt fun pair hpair => hpairs pair (List.mem_append_left _ hpair)
        have hst : variance.At (SubAt order (referentVariance mutable)) s t :=
          (subAt_of_relatePairs _ s t hinside fun pair hpair =>
            hpairs pair (List.mem_append_right _ hpair)).of_compose
        rw [Variance.at_iff] at hab hst
        refine subAt_iff.2 (Variance.at_iff.2 ⟨fun hforward => ?_, fun hbackward => ?_⟩)
        · exact .ref (hab.1 hforward) (hst.1 hforward)
        · exact .ref (hab.2 hbackward) (hst.2 hbackward)
      · cases h
    | adt decl lifetimes args => cases h
  | .adt decl as args, t, pairs, h, hpairs => by
    cases t with
    | scalar b => cases h
    | ref b mutable referent => cases h
    | adt decl' bs args' =>
      rw [relatePairs] at h
      split at h
      · next heq =>
        subst heq
        obtain ⟨inside, hinside, h⟩ := exists_of_bind_eq_ok h
        cases h
        have hlifetimes : ∀ (i : Nat) (param : AdtParam) (a b : String),
            decl.lifetimeParams[i]? = some param → as[i]? = some a → bs[i]? = some b →
              variance.At (param.variance.At order) a b :=
          fun i param a b hparam ha hb => at_of_relateLifetimes
            (fun pair hpair => hpairs pair (List.mem_append_left _ hpair)) hparam ha hb
        have hargs : ∀ (i : Nat) (param : AdtParam) (s t : Ty),
            decl.typeParams[i]? = some param → args[i]? = some s → args'[i]? = some t →
              variance.At (SubAt order param.variance) s t :=
          fun i param s t hparam hs ht => subAt_of_relateArgs variance args hinside
            (fun pair hpair => hpairs pair (List.mem_append_right _ hpair)) hparam hs ht
        refine subAt_iff.2 (Variance.at_iff.2 ⟨fun hforward => .adt ?_ ?_,
          fun hbackward => .adt ?_ ?_⟩)
        · intro i param a b hparam ha hb
          exact (Variance.at_iff.1 (hlifetimes i param a b hparam ha hb)).1 hforward
        · intro i param s t hparam hs ht
          exact (Variance.at_iff.1 (hargs i param s t hparam hs ht)).1 hforward
        · intro i param b a hparam hb ha
          exact (Variance.at_iff.1 (hlifetimes i param a b hparam ha hb)).2 hbackward
        · intro i param t s hparam ht hs
          exact (Variance.at_iff.1 (hargs i param s t hparam hs ht)).2 hbackward
      · cases h

/-- Lists of type arguments whose pairs are in order are related parameter by parameter. -/
theorem subAt_of_relateArgs (variance : Variance) : ∀ (args : List Ty) {params : List AdtParam}
    {args' : List Ty} {pairs : List (String × String)},
    relateArgs variance params args args' = .ok pairs →
      (∀ pair ∈ pairs, order pair.1 pair.2) → ∀ {i : Nat} {param : AdtParam} {s t : Ty},
      params[i]? = some param → args[i]? = some s → args'[i]? = some t →
        variance.At (SubAt order param.variance) s t
  | [], params, args', pairs, _, _, i, param, s, t, _, hs, _ => by
    simp at hs
  | first :: args, params, args', pairs, h, hpairs, i, param, s, t, hparam, hs, ht => by
    cases params with
    | nil => simp at hparam
    | cons firstParam params =>
      cases args' with
      | nil => simp at ht
      | cons first' args' =>
        rw [relateArgs] at h
        obtain ⟨inside, hinside, h⟩ := exists_of_bind_eq_ok h
        obtain ⟨others, hothers, h⟩ := exists_of_bind_eq_ok h
        cases h
        cases i with
        | zero =>
          obtain rfl : firstParam = param := by simpa using hparam
          obtain rfl : first = s := by simpa using hs
          obtain rfl : first' = t := by simpa using ht
          exact (subAt_of_relatePairs _ first first' hinside fun pair hpair =>
            hpairs pair (List.mem_append_left _ hpair)).of_compose
        | succ i =>
          rw [List.getElem?_cons_succ] at hparam hs ht
          exact subAt_of_relateArgs variance args hothers
            (fun pair hpair => hpairs pair (List.mem_append_right _ hpair)) hparam hs ht

end

/-- Leaving out repetitions and trivial pairs loses nothing where the order is reflexive. -/
theorem subAt_of_relate (hrefl : ∀ a, order a a) {s t : Ty} {pairs : List (String × String)}
    (h : relate variance s t = .ok pairs) (hpairs : ∀ pair ∈ pairs, order pair.1 pair.2) :
    SubAt order variance s t := by
  obtain ⟨all, hall, rfl⟩ := exists_of_map_eq_ok h
  refine subAt_of_relatePairs variance s t hall ?_
  rintro ⟨a, b⟩ hpair
  by_cases hab : a = b
  · subst hab
    exact hrefl a
  · refine hpairs (a, b) (List.mem_eraseDups.2 (List.mem_filter.2 ⟨hpair, ?_⟩))
    simpa using hab

end Ty

/-! ### What assignments demand -/

namespace Demand

/-- The demands of a subtyping are at its point, and where they are in order it holds. -/
theorem subtype_eq_ok (order : String → String → Prop) {s t : Ty} {point : Point}
    {origin : Origin} {variance : Variance} {demands : List Demand}
    (h : subtype (some s) (some t) point origin variance = .ok demands) :
    (∀ demand ∈ demands, demand.point = point) ∧
      ((∀ a, order a a) → (∀ demand ∈ demands, order demand.longer demand.shorter) →
        Ty.SubAt order variance s t) := by
  obtain ⟨pairs, hpairs, h⟩ := exists_of_bind_eq_ok h
  cases h
  have hrelate : Ty.relate variance s t = .ok pairs := by
    cases hresult : Ty.relate variance s t with
    | error fault =>
      rw [hresult] at hpairs
      cases hpairs
    | ok pairs' =>
      rw [hresult] at hpairs
      cases hpairs
      rfl
  constructor
  · intro demand hdemand
    obtain ⟨pair, -, rfl⟩ := List.mem_map.1 hdemand
    rfl
  · intro hrefl hall
    refine Ty.subAt_of_relate hrefl hrelate fun pair hpair => ?_
    exact hall ⟨pair.1, pair.2, point, origin⟩ (List.mem_map.2 ⟨pair, hpair, rfl⟩)

/-- What an assignment demands includes that the value has a subtype of the place. -/
theorem assignment_stored {body : Body} {place : Place} {rvalue : Rvalue} {point : Point}
    {demands : List Demand} (h : assignment body place rvalue point = .ok demands) {s t : Ty}
    (hvalue : body.rvalueType rvalue = .ok (some s))
    (hplace : body.placeType place = .ok (some t)) :
    ∃ origin stored, subtype (some s) (some t) point origin = .ok stored ∧
      ∀ demand ∈ stored, demand ∈ demands := by
  unfold assignment at h
  rw [hplace] at h
  obtain ⟨_, htarget, h⟩ := exists_of_bind_eq_ok h
  cases htarget
  cases rvalue with
  | use operand =>
    dsimp only at h
    rw [hvalue] at h
    exact ⟨.assignment, demands, h, fun demand hdemand => hdemand⟩
  | borrow lifetime mutable borrowed =>
    dsimp only at h
    rw [hvalue] at h
    obtain ⟨_, hknown, h⟩ := exists_of_bind_eq_ok h
    cases hknown
    obtain ⟨stored, hstored, h⟩ := exists_of_bind_eq_ok h
    obtain ⟨through, -, h⟩ := exists_of_bind_eq_ok h
    cases h
    exact ⟨.assignment, stored, hstored, fun demand hdemand => List.mem_append_left _ hdemand⟩
  | call func args params result =>
    obtain rfl : result = some s := by simpa [Body.rvalueType] using hvalue
    obtain ⟨arguments, -, h⟩ := exists_of_bind_eq_ok h
    obtain ⟨stored, hstored, h⟩ := exists_of_bind_eq_ok h
    cases h
    exact ⟨.callReturn, stored, hstored, fun demand hdemand => List.mem_append_right _ hdemand⟩
  | const value => cases hvalue

/-- What an assignment from a call demands includes that each argument has a subtype of its
parameter. -/
theorem assignment_argument {body : Body} {place : Place} {func : String} {args : List Operand}
    {params : List Ty} {result : Option Ty} {point : Point} {demands : List Demand}
    (h : assignment body place (.call func args params result) point = .ok demands)
    {arg : Operand} {param s : Ty} (harg : (arg, param) ∈ args.zip params)
    (htype : body.operandType arg = .ok (some s)) :
    ∃ passed, subtype (some s) (some param) point .callArgument = .ok passed ∧
      ∀ demand ∈ passed, demand ∈ demands := by
  unfold assignment at h
  obtain ⟨target, -, h⟩ := exists_of_bind_eq_ok h
  obtain ⟨arguments, harguments, h⟩ := exists_of_bind_eq_ok h
  obtain ⟨stored, -, h⟩ := exists_of_bind_eq_ok h
  cases h
  obtain ⟨passed, hpassed, hsubtype⟩ := exists_of_mem_mapM harguments harg
  dsimp only at hsubtype
  rw [htype] at hsubtype
  refine ⟨passed, hsubtype, fun demand hdemand => List.mem_append_left _ ?_⟩
  exact List.mem_flatten.2 ⟨passed, hpassed, hdemand⟩

end Demand

namespace Body

namespace Analyzed

variable {body : Body} {settings : Settings} {report : Report} {liveness : Liveness}
  {set : ConstraintSet} {solution : Solution}

/-- A subtyping whose demands hold in the constraints holds of the regions. -/
theorem subAt (h : body.Analyzed settings report liveness set solution)
    (hmet : set.MetBy report.regions.regionOf)
    {s t : Ty} {point : Point} {origin : Origin} {variance : Variance} {demands : List Demand}
    {q : Nat} (hq : body.graph.index? point = some q)
    (hdemands : Demand.subtype (some s) (some t) point origin variance = .ok demands)
    (hhas : ∀ demand ∈ demands, set.Has demand) :
    Ty.SubAt (body.graph.Outlasts report.regions.regionOf q) variance s t := by
  obtain ⟨hpoint, hrelated⟩ := Demand.subtype_eq_ok
    (body.graph.Outlasts report.regions.regionOf q) hdemands
  refine hrelated (fun a => .refl _ _ _ _) fun demand hdemand => ?_
  refine h.outlasts hmet (hhas demand hdemand) ?_
  rwa [hpoint demand hdemand]

/-- What an assignment demands holds in the constraints, at the point that follows. -/
theorem exists_assignment (h : body.Analyzed settings report liveness set solution) {i q : Nat}
    {place : Place} {rvalue : Rvalue}
    (helement : body.graph.elementAt? i = some (.stmt (.assign place rvalue)))
    (hq : q ∈ body.graph.succ i) :
    ∃ point demands, body.graph.index? point = some q ∧
      Demand.assignment body place rvalue point = .ok demands ∧
      ∀ demand ∈ demands, set.Has demand := by
  obtain ⟨point, hpoint⟩ := Graph.exists_point (Graph.lt_size_of_elementAt? helement)
  have hitem := Graph.mem_items.2 ⟨i, hpoint, helement⟩
  obtain ⟨demands, hdemands, hhas⟩ :=
    ConstraintSet.exists_ofElement h.body_eq h.generated hitem
  rw [Graph.succ_of_stmt helement, List.mem_singleton] at hq
  subst hq
  exact ⟨_, demands, Graph.index?_next hpoint helement, hdemands, hhas⟩

/-- From the point after an assignment on, the value has a subtype of the place. -/
theorem subAt_of_assign (h : body.Analyzed settings report liveness set solution)
    (hmet : set.MetBy report.regions.regionOf)
    {i q : Nat} {place : Place} {rvalue : Rvalue} {s t : Ty}
    (helement : body.graph.elementAt? i = some (.stmt (.assign place rvalue)))
    (hq : q ∈ body.graph.succ i) (hvalue : body.rvalueType rvalue = .ok (some s))
    (hplace : body.placeType place = .ok (some t)) :
    Ty.SubAt (body.graph.Outlasts report.regions.regionOf q) .covariant s t := by
  obtain ⟨point, demands, hpoint, hdemands, hhas⟩ := h.exists_assignment helement hq
  obtain ⟨origin, stored, hstored, hsubset⟩ := Demand.assignment_stored hdemands hvalue hplace
  exact h.subAt hmet hpoint hstored fun demand hdemand =>
    hhas demand (hsubset demand hdemand)

/-- From the point after a call on, each argument has a subtype of its parameter. -/
theorem subAt_of_argument (h : body.Analyzed settings report liveness set solution)
    (hmet : set.MetBy report.regions.regionOf)
    {i q : Nat} {place : Place} {func : String} {args : List Operand} {params : List Ty}
    {result : Option Ty} {arg : Operand} {param s : Ty}
    (helement : body.graph.elementAt? i =
      some (.stmt (.assign place (.call func args params result))))
    (hq : q ∈ body.graph.succ i) (harg : (arg, param) ∈ args.zip params)
    (htype : body.operandType arg = .ok (some s)) :
    Ty.SubAt (body.graph.Outlasts report.regions.regionOf q) .covariant s param := by
  obtain ⟨point, demands, hpoint, hdemands, hhas⟩ := h.exists_assignment helement hq
  obtain ⟨passed, hpassed, hsubset⟩ := Demand.assignment_argument hdemands harg htype
  exact h.subAt hmet hpoint hpassed fun demand hdemand =>
    hhas demand (hsubset demand hdemand)

end Analyzed

/-- **The solved regions respect subtyping.** When an analysis has converged and nothing is recorded
against a placeholder, the lifetimes are ordered at each point by how their regions outlast each
other. From the point after an assignment on, the type of the value is a subtype of the type of the
place in this order; so is the type of an argument of the type of its parameter, and the type of a
result of the type of its place; and an obligation holds at its own point and variance. -/
theorem regions_respect_subtyping {body : Body} {settings : Settings} {report : Report}
    (h : body.analyze settings = .ok report) (hconverged : report.converged = true)
    (hviolations : report.violations = []) :
    let outlasts := body.graph.Outlasts report.regions.regionOf
    (∀ q, (∀ a, outlasts q a a) ∧
      ∀ a b c, outlasts q a b → outlasts q b c → outlasts q a c) ∧
    (∀ i q place rvalue, body.graph.elementAt? i = some (.stmt (.assign place rvalue)) →
      q ∈ body.graph.succ i →
      (∀ s t, body.rvalueType rvalue = .ok (some s) → body.placeType place = .ok (some t) →
        Ty.SubAt (outlasts q) .covariant s t) ∧
      ∀ func args params result, rvalue = .call func args params result →
        (∀ arg param s, (arg, param) ∈ args.zip params → body.operandType arg = .ok (some s) →
          Ty.SubAt (outlasts q) .covariant s param) ∧
        ∀ s t, result = some s → body.placeType place = .ok (some t) →
          Ty.SubAt (outlasts q) .covariant s t) ∧
    ∀ obligation ∈ body.obligations, ∃ q, body.graph.index? obligation.point = some q ∧
      match obligation with
      | .outlives longer shorter _ => outlasts q longer shorter
      | .subtype sub sup _ variance => Ty.SubAt (outlasts q) variance sub sup := by
  intro outlasts
  obtain ⟨liveness, set, solution, hrun⟩ := analyze_eq_ok h
  have hmet := hrun.metBy hconverged (.inl hviolations)
  refine ⟨fun q => ⟨fun a => .refl _ _ _ _, fun a b c => .trans⟩, ?_, ?_⟩
  · intro i q place rvalue helement hq
    have hvalue : ∀ s t, body.rvalueType rvalue = .ok (some s) →
        body.placeType place = .ok (some t) → Ty.SubAt (outlasts q) .covariant s t :=
      fun s t => hrun.subAt_of_assign hmet helement hq
    refine ⟨hvalue, ?_⟩
    rintro func args params result rfl
    constructor
    · intro arg param s harg hs
      exact hrun.subAt_of_argument hmet helement hq harg hs
    · rintro s t rfl ht
      exact hvalue s t rfl ht
  · intro obligation hobligation
    obtain ⟨q, hq⟩ := exists_index_of_obligation hobligation
    refine ⟨q, hq, ?_⟩
    obtain ⟨demands, hdemands, hhas⟩ :=
      ConstraintSet.exists_ofObligation hrun.body_eq hrun.generated hobligation
    cases obligation with
    | outlives longer shorter point =>
      cases hdemands
      exact hrun.outlasts hmet (hhas _ List.mem_cons_self) hq
    | subtype sub sup point variance =>
      exact hrun.subAt hmet hq hdemands hhas

end Body

/-! ### The analysis of the sample body -/

namespace Sample

/-- What is live in the sample body. -/
def liveness : Liveness :=
  let p := NameSet.ofList ["p"]
  let both := NameSet.ofList ["p", "q"]
  { body
    facts := #[(.ofList ["x"], ∅), (p, ∅), (p, ∅), (both, ∅), (both, ∅), (p, ∅), (∅, ∅), (p, ∅),
      (p, ∅)]
    iterations := 6 }

/-- The constraints of the sample body. -/
def bodyConstraints : ConstraintSet :=
  (ConstraintSet.ofLists graph ["l", "m", "r"]
    [⟨"l", ⟨"A", 1⟩, 1, .liveness⟩, ⟨"l", ⟨"B", 0⟩, 2, .liveness⟩, ⟨"l", ⟨"B", 1⟩, 3, .liveness⟩,
      ⟨"m", ⟨"B", 1⟩, 3, .liveness⟩, ⟨"l", ⟨"B", 2⟩, 4, .liveness⟩, ⟨"m", ⟨"B", 2⟩, 4, .liveness⟩,
      ⟨"l", ⟨"B", 3⟩, 5, .liveness⟩, ⟨"l", ⟨"D", 0⟩, 7, .liveness⟩, ⟨"l", ⟨"D", 1⟩, 8, .liveness⟩]
    [⟨"r", "l", ⟨"A", 1⟩, 1, .assignment⟩, ⟨"l", "m", ⟨"B", 1⟩, 3, .assignment⟩]).freeze

/-- The regions of the sample body. -/
def regions : NameMap PointSet :=
  ⟨[("l", ⟨446⟩), ("m", ⟨24⟩), ("r", ⟨62⟩)]⟩

/-- How regions are solved for in the sample body. -/
def problem : Problem :=
  { constraints := bodyConstraints, declared := body.declared }

/-- Solving takes two rounds. -/
theorem solve_problem : problem.solve =
    .ok { regions, violations := [], rounds := 2, applications := 10, converged := true
          history := [] } := by
  have hrun : (problem.start {} >>= problem.runLive >>= problem.runFor 2) =
      .ok { regions, work := [], rounds := 2, applications := 10 } := by cbv
  exact Problem.solve_of_runFor rfl (by decide) hrun rfl

/-- The liveness of the sample body. -/
theorem run_body : Liveness.run body = .ok liveness := by cbv

/-- Its constraints. -/
theorem ofBody_liveness : ConstraintSet.ofBody body liveness = .ok bodyConstraints := by cbv

/-- Its conflicts can be found. -/
theorem conflicts_isOk : (body.conflicts bodyConstraints regions).isOk = true := by cbv

/-- The sample body can be analysed. -/
theorem exists_report : ∃ report, body.analyze = .ok report ∧ report.regions = regions ∧
    report.violations = [] ∧ report.converged = true := by
  have hok := conflicts_isOk
  cases hconflicts : body.conflicts bodyConstraints regions with
  | error fault =>
    rw [hconflicts] at hok
    cases hok
  | ok conflicts =>
    exact @Body.exists_analyze body {} _ _ _ _ run_body ofBody_liveness solve_problem hconflicts

end Sample

/-- In the sample body, from the point after the copy on, the type of `p` is a subtype of the type
of `q`. -/
theorem Body.copy_respects_subtyping : ∃ report, Sample.body.analyze = .ok report ∧
    report.converged = true ∧ report.violations = [] ∧
    Ty.SubAt (Sample.graph.Outlasts report.regions.regionOf 3) .covariant
      (.ref "l" false (.scalar "i32")) (.ref "m" false (.scalar "i32")) := by
  obtain ⟨report, hreport, -, hviolations, hconverged⟩ := Sample.exists_report
  refine ⟨report, hreport, hconverged, hviolations, ?_⟩
  have hrespect := (regions_respect_subtyping hreport hconverged hviolations).2.1 2 3 ⟨"q", []⟩
    (.use (.copy ⟨"p", []⟩)) rfl (by decide)
  exact hrespect.1 _ _ rfl rfl

end RegionInference
