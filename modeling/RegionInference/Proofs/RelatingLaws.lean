import Mathlib
import RegionInference.Proofs.Relating

/-!
# Relating types is a preorder with a dual

The rules of `Ty.Related` carry the laws of the order of the lifetimes over to types. Every type is
related to itself if the order is reflexive (`Ty.Related.refl`), and the relation is transitive if
the order is (`Ty.Related.trans`). Turning the types round is the same as relating them at the dual
variance (`Ty.Related.dual`). What is related invariantly is related at every variance
(`Ty.Related.of_invariant`), and what is related at a variance and at its dual is related
invariantly, as long as no declaration has a bivariant parameter
(`Ty.Related.invariant_of_dual`).

The pairs that relating two types asks for obey the same laws, although they come without
repetitions and trivial pairs. They are the least reflexive order in which the types are related
(`Ty.related_granted`, `Ty.mem_of_related`), so each law for pairs is a law of the relation in an
order that is made of other pairs. All of them stand in `Ty.relate_preorder`.
-/

namespace RegionInference

namespace Variance

/-- The variance of the types turned round. -/
def dual : Variance → Variance
  | .covariant => .contravariant
  | .contravariant => .covariant
  | .invariant => .invariant
  | .bivariant => .bivariant

variable {variance inner : Variance} {order : α → α → Prop} {a b c : α}

/-- Turning round the whole turns round what stands inside. -/
theorem dual_compose (outer inner : Variance) :
    (outer.compose inner).dual = outer.dual.compose inner := by
  cases outer <;> cases inner <;> rfl

/-- A variance inside another one is bivariant only if one of them is. -/
theorem compose_ne_bivariant (houter : variance ≠ .bivariant) (hinner : inner ≠ .bivariant) :
    variance.compose inner ≠ .bivariant := by
  cases variance <;> cases inner <;> simp_all [compose]

/-- What is related at a variance is related at the dual one, the other way round. -/
theorem At.dual (h : variance.At order a b) : variance.dual.At order b a := by
  cases variance with
  | invariant => exact h.symm
  | _ => exact h

/-- Every variance relates what is equal, if the order does. -/
theorem At.refl (hrefl : ∀ a, order a a) (variance : Variance) (a : α) : variance.At order a a :=
  at_iff.2 ⟨fun _ => hrefl a, fun _ => hrefl a⟩

/-- Relations at a variance can be chained, if those of the order can. -/
theorem At.trans (htrans : ∀ a b c, order a b → order b c → order a c)
    (hab : variance.At order a b) (hbc : variance.At order b c) : variance.At order a c := by
  rw [at_iff] at hab hbc ⊢
  exact ⟨fun h => htrans a b c (hab.1 h) (hbc.1 h), fun h => htrans c b a (hbc.2 h) (hab.2 h)⟩

/-- What is related both ways is related at every variance. -/
theorem At.of_invariant (h : Variance.invariant.At order a b) (variance : Variance) :
    variance.At order a b :=
  at_iff.2 ⟨fun _ => h.1, fun _ => h.2⟩

/-- Except at a bivariant position, the relation and its dual make both directions. -/
theorem At.invariant_of_dual (hne : variance ≠ .bivariant) (h : variance.At order a b)
    (hdual : variance.dual.At order a b) : Variance.invariant.At order a b := by
  cases variance with
  | covariant => exact ⟨h, hdual⟩
  | contravariant => exact ⟨hdual, h⟩
  | invariant => exact h
  | bivariant => exact absurd rfl hne

end Variance

namespace Ty

variable {order : String → String → Prop} {variance : Variance} {s t u : Ty}

/-! ### Parts of types -/

mutual

/-- The declarations whose instances occur in a type. -/
def decls : Ty → List AdtDecl
  | .scalar _ => []
  | .ref _ _ referent => referent.decls
  | .adt decl _ args => decl :: declsOfAll args

/-- The declarations whose instances occur in the types of a list. -/
def declsOfAll : List Ty → List AdtDecl
  | [] => []
  | ty :: tys => ty.decls ++ declsOfAll tys

end

/-- No declaration whose instances occur in a type has a bivariant parameter. -/
def NoBivariant (ty : Ty) : Prop :=
  ∀ decl ∈ ty.decls, ∀ param ∈ decl.lifetimeParams ++ decl.typeParams, param.variance ≠ .bivariant

instance (ty : Ty) : Decidable ty.NoBivariant :=
  inferInstanceAs (Decidable (∀ decl ∈ ty.decls,
    ∀ param ∈ decl.lifetimeParams ++ decl.typeParams, param.variance ≠ .bivariant))

/-- The declarations of an argument are among those of all arguments. -/
theorem mem_declsOfAll {args : List Ty} (hs : s ∈ args) {decl : AdtDecl} (h : decl ∈ s.decls) :
    decl ∈ declsOfAll args := by
  induction args with
  | nil => cases hs
  | cons first args ih =>
    rw [declsOfAll, List.mem_append]
    rcases List.mem_cons.1 hs with rfl | hrest
    · exact .inl h
    · exact .inr (ih hrest)

/-- An argument of a type without bivariant parameters is one, too. -/
theorem NoBivariant.arg {decl : AdtDecl} {as : List String} {args : List Ty}
    (h : (Ty.adt decl as args).NoBivariant) (hs : s ∈ args) : s.NoBivariant :=
  fun decl' hdecl => h decl' (List.mem_cons_of_mem _ (mem_declsOfAll hs hdecl))

/-- One of several well-formed types is well formed. -/
theorem WellFormed.arg {args : List Ty} (h : AllWellFormed args) (hs : s ∈ args) :
    s.WellFormed := by
  induction args with
  | nil => cases hs
  | cons first args ih =>
    rcases List.mem_cons.1 hs with rfl | hrest
    · exact h.1
    · exact ih h.2 hrest

/-- Where a parameter stands, there stands an argument, if there are as many of them. -/
theorem exists_arg {params : List AdtParam} {args : List α} (hlength : args.length = params.length)
    {i : Nat} {param : AdtParam} (hparam : params[i]? = some param) : ∃ a, args[i]? = some a := by
  obtain ⟨hi, -⟩ := List.getElem?_eq_some_iff.1 hparam
  exact ⟨args[i], List.getElem?_eq_getElem _⟩

/-! ### Laws of the relation -/

namespace Related

mutual

/-- Every type is related to itself. -/
theorem refl (hrefl : ∀ a, order a a) (variance : Variance) :
    ∀ t : Ty, Related order variance t t
  | .scalar name => .scalar variance name
  | .ref a _ t =>
    related_ref_iff.2 ⟨Variance.At.refl hrefl variance a, refl hrefl _ t⟩
  | .adt decl as args => by
    refine .adt (fun i param a b _ ha hb => ?_) fun i param s t _ hs ht => ?_
    · rw [ha] at hb
      cases hb
      exact Variance.At.refl hrefl _ a
    · rw [hs] at ht
      cases ht
      exact reflAll hrefl _ args (List.mem_of_getElem? hs)

/-- Every type among some arguments is related to itself. -/
theorem reflAll (hrefl : ∀ a, order a a) (variance : Variance) :
    ∀ args : List Ty, ∀ {s : Ty}, s ∈ args → Related order variance s s
  | [], _, hs => absurd hs List.not_mem_nil
  | first :: args, s, hs => by
    rcases List.mem_cons.1 hs with heq | hrest
    · rw [heq]
      exact refl hrefl variance first
    · exact reflAll hrefl variance args hrest

end

/-- Turned round, types are related at the dual variance. -/
theorem dual (h : Related order variance s t) : Related order variance.dual t s := by
  induction h with
  | scalar variance name => exact .scalar variance.dual name
  | shared hab _ ih => exact .shared hab.dual ih
  | mutable hab _ ih =>
    rw [Variance.dual_compose] at ih
    exact .mutable hab.dual ih
  | adt hlifetimes _ ih =>
    refine .adt (fun i param a b hparam ha hb => ?_) fun i param s t hparam hs ht => ?_
    · rw [← Variance.dual_compose]
      exact (hlifetimes i param b a hparam hb ha).dual
    · rw [← Variance.dual_compose]
      exact ih i param t s hparam ht hs

/-- The relation is transitive. That the type between is well formed is needed: its arguments have
to reach as far as those of the other two. -/
theorem trans (htrans : ∀ a b c, order a b → order b c → order a c)
    (h : Related order variance s t) (hwell : t.WellFormed) (htu : Related order variance t u) :
    Related order variance s u := by
  induction h generalizing u with
  | scalar => exact htu
  | shared hab _ ih =>
    cases htu with
    | shared hbc htu => exact .shared (hab.trans htrans hbc) (ih hwell htu)
  | mutable hab _ ih =>
    cases htu with
    | mutable hbc htu => exact .mutable (hab.trans htrans hbc) (ih hwell htu)
  | adt hlifetimes _ ih =>
    obtain ⟨hlength, hlength', hargs⟩ := hwell
    cases htu with
    | adt hlifetimes' hargs' =>
      refine .adt (fun i param a c hparam ha hc => ?_) fun i param s u hparam hs hu => ?_
      · obtain ⟨b, hb⟩ := exists_arg hlength hparam
        have hab := hlifetimes i param a b hparam ha hb
        exact hab.trans htrans (hlifetimes' i param b c hparam hb hc)
      · obtain ⟨t, ht⟩ := exists_arg hlength' hparam
        exact ih i param s t hparam hs ht (WellFormed.arg hargs (List.mem_of_getElem? ht))
          (hargs' i param t u hparam ht hu)

/-- What is related invariantly is related at every variance. -/
theorem of_invariant (h : Related order .invariant s t) (variance : Variance) :
    Related order variance s t := by
  -- invariance is passed on to everything inside, so the induction stays at it
  generalize houter : Variance.invariant = outer at h
  induction h generalizing variance with
  | scalar _ name => exact .scalar variance name
  | shared hab _ ih =>
    subst houter
    exact .shared (hab.of_invariant variance) (ih variance rfl)
  | mutable hab _ ih =>
    subst houter
    exact .mutable (hab.of_invariant variance) (ih _ rfl)
  | adt hlifetimes _ ih =>
    subst houter
    refine .adt (fun i param a b hparam ha hb => ?_) fun i param s t hparam hs ht => ?_
    · exact (hlifetimes i param a b hparam ha hb).of_invariant _
    · exact ih i param s t hparam hs ht _ rfl

/-- What is related at a variance and at its dual is related invariantly, unless some declaration
has a bivariant parameter. -/
theorem invariant_of_dual (hne : variance ≠ .bivariant) (hnone : s.NoBivariant)
    (h : Related order variance s t) (hdual : Related order variance.dual s t) :
    Related order .invariant s t := by
  induction h with
  | scalar _ name => exact .scalar .invariant name
  | shared hab _ ih =>
    cases hdual with
    | shared hab' hst' => exact .shared (hab.invariant_of_dual hne hab') (ih hne hnone hst')
  | @mutable variance a b s t hab _ ih =>
    cases hdual with
    | mutable hab' hst' =>
      rw [← Variance.dual_compose] at hst'
      have hne' : variance.compose .invariant ≠ .bivariant :=
        Variance.compose_ne_bivariant hne (by decide)
      exact .mutable (hab.invariant_of_dual hne hab') (ih hne' hnone hst')
  | @adt variance decl as bs args args' hlifetimes _ ih =>
    have hparams := hnone decl List.mem_cons_self
    cases hdual with
    | adt hlifetimes' hargs' =>
      refine .adt (fun i param a b hparam ha hb => ?_) fun i param s t hparam hs ht => ?_
      · have hmem := List.mem_append_left decl.typeParams (List.mem_of_getElem? hparam)
        have hdual' := hlifetimes' i param a b hparam ha hb
        rw [← Variance.dual_compose] at hdual'
        exact (hlifetimes i param a b hparam ha hb).invariant_of_dual
          (Variance.compose_ne_bivariant hne (hparams param hmem)) hdual'
      · have hmem := List.mem_append_right decl.lifetimeParams (List.mem_of_getElem? hparam)
        have hdual' := hargs' i param s t hparam hs ht
        rw [← Variance.dual_compose] at hdual'
        exact ih i param s t hparam hs ht
          (Variance.compose_ne_bivariant hne (hparams param hmem))
          (hnone.arg (List.mem_of_getElem? hs)) hdual'

end Related

/-! ### Laws of the pairs -/

variable {pairs others : List (String × String)}

/-- The least reflexive order with some pairs in it. -/
def Granted (pairs : List (String × String)) (a b : String) : Prop :=
  a = b ∨ (a, b) ∈ pairs

/-- In the order of its own pairs, what was related is related. -/
theorem related_granted (h : relate variance s t = .ok pairs)
    (hsub : ∀ pair ∈ pairs, pair ∈ others) : Related (Granted others) variance s t :=
  (forall_relate_iff (fun _ => .inl rfl) h).1 fun pair hpair => .inr (hsub pair hpair)

/-- In whatever order of pairs the types are related, their own pairs are among these. -/
theorem mem_of_related (h : relate variance s t = .ok pairs)
    (hrelated : Related (Granted others) variance s t) : ∀ pair ∈ pairs, pair ∈ others := by
  intro pair hpair
  obtain ⟨all, -, hmem⟩ := mem_relate h
  have hgranted : Granted others pair.1 pair.2 :=
    (forall_relate_iff (fun _ => .inl rfl) h).2 hrelated pair hpair
  exact hgranted.resolve_left ((hmem pair).1 hpair).2

/-- Types of one shape can be related. -/
theorem exists_relate (variance : Variance) (hshape : s.shape = t.shape) :
    ∃ pairs, relate variance s t = .ok pairs := by
  have hends := ends_relate variance s t
  cases hresult : relate variance s t with
  | ok pairs => exact ⟨pairs, rfl⟩
  | error error =>
    rw [hresult] at hends
    exact absurd hshape hends.1

/-- A type asks for nothing of itself. -/
theorem relate_self (variance : Variance) (t : Ty) : relate variance t t = .ok [] := by
  obtain ⟨pairs, hpairs⟩ := exists_relate variance (rfl : t.shape = t.shape)
  have hself : Related (Granted []) variance t t := .refl (fun _ => .inl rfl) variance t
  have hnone : pairs = [] := List.eq_nil_iff_forall_not_mem.2 fun pair hpair =>
    absurd (mem_of_related hpairs hself pair hpair) List.not_mem_nil
  rw [hpairs, hnone]

/-- What is asked for at the dual variance of the types turned round is asked for. -/
theorem mem_of_dual (hpairs : relate variance s t = .ok pairs)
    (hothers : relate variance.dual t s = .ok others) : ∀ pair ∈ others, pair ∈ pairs :=
  mem_of_related hothers (related_granted hpairs fun _ => id).dual

/-- What is asked for from the first type to the last follows from what is asked for over a type
between them. -/
theorem closure_of_relate {first second : List (String × String)} (hwell : t.WellFormed)
    (hfirst : relate variance s t = .ok first) (hsecond : relate variance t u = .ok second)
    (hpairs : relate variance s u = .ok pairs) :
    ∀ pair ∈ pairs, Relation.ReflTransGen (fun a b => (a, b) ∈ first ++ second) pair.1 pair.2 := by
  have hst := (forall_relate_iff (fun _ => .refl) hfirst).1 fun pair hpair =>
    Relation.ReflTransGen.single (r := fun a b => (a, b) ∈ first ++ second)
      (List.mem_append_left second hpair)
  have htu := (forall_relate_iff (fun _ => .refl) hsecond).1 fun pair hpair =>
    Relation.ReflTransGen.single (r := fun a b => (a, b) ∈ first ++ second)
      (List.mem_append_right first hpair)
  exact (forall_relate_iff (fun _ => .refl) hpairs).2
    (hst.trans (fun _ _ _ => .trans) hwell htu)

/-- **Relating types is a preorder with a dual.** For types of one shape and any variance, relating
succeeds, a type asks for nothing of itself, the types turned round ask for the same pairs at the
dual variance, and what is asked for from the first type to the last follows from what is asked for
over a type between them. At the invariant position all pairs are asked for that are so at the
covariant and at the contravariant one, and no others if no declaration has a bivariant
parameter. -/
theorem relate_preorder (variance : Variance) (s t u : Ty) (hwell : t.WellFormed)
    (hst : s.shape = t.shape) (htu : t.shape = u.shape) :
    relate variance t t = .ok [] ∧
    (∃ pairs turned, relate variance s t = .ok pairs ∧ relate variance.dual t s = .ok turned ∧
      ∀ pair, pair ∈ pairs ↔ pair ∈ turned) ∧
    (∃ first second pairs, relate variance s t = .ok first ∧ relate variance t u = .ok second ∧
      relate variance s u = .ok pairs ∧ ∀ pair ∈ pairs,
        Relation.ReflTransGen (fun a b => (a, b) ∈ first ++ second) pair.1 pair.2) ∧
    (∃ covariant contravariant invariant, relate .covariant s t = .ok covariant ∧
      relate .contravariant s t = .ok contravariant ∧ relate .invariant s t = .ok invariant ∧
      (∀ pair ∈ covariant ++ contravariant, pair ∈ invariant) ∧
      (s.NoBivariant → ∀ pair ∈ invariant, pair ∈ covariant ++ contravariant)) := by
  refine ⟨relate_self variance t, ?_, ?_, ?_⟩
  · obtain ⟨pairs, hpairs⟩ := exists_relate variance hst
    obtain ⟨turned, hturned⟩ := exists_relate variance.dual hst.symm
    have hback : relate variance.dual.dual s t = .ok pairs := by
      cases variance <;> exact hpairs
    exact ⟨pairs, turned, hpairs, hturned, fun pair =>
      ⟨mem_of_dual hturned hback pair, mem_of_dual hpairs hturned pair⟩⟩
  · obtain ⟨first, hfirst⟩ := exists_relate variance hst
    obtain ⟨second, hsecond⟩ := exists_relate variance htu
    obtain ⟨pairs, hpairs⟩ := exists_relate variance (hst.trans htu)
    exact ⟨first, second, pairs, hfirst, hsecond, hpairs,
      closure_of_relate hwell hfirst hsecond hpairs⟩
  · obtain ⟨covariant, hcovariant⟩ := exists_relate .covariant hst
    obtain ⟨contravariant, hcontravariant⟩ := exists_relate .contravariant hst
    obtain ⟨invariant, hinvariant⟩ := exists_relate .invariant hst
    refine ⟨covariant, contravariant, invariant, hcovariant, hcontravariant, hinvariant, ?_, ?_⟩
    · have hrelated := related_granted hinvariant fun _ => id
      intro pair hpair
      rcases List.mem_append.1 hpair with hforward | hbackward
      · exact mem_of_related hcovariant (hrelated.of_invariant .covariant) pair hforward
      · exact mem_of_related hcontravariant (hrelated.of_invariant .contravariant) pair hbackward
    · intro hnone
      have hforward := related_granted hcovariant fun _ => List.mem_append_left contravariant
      have hbackward := related_granted hcontravariant fun _ => List.mem_append_right covariant
      exact mem_of_related hinvariant (hforward.invariant_of_dual (by decide) hnone hbackward)

end Ty

namespace Sample

/-- A declaration that is contravariant in its lifetime and covariant in its type argument. -/
def handler : AdtDecl where
  name := "Handler"
  lifetimeParams := [{ name := "x", variance := .contravariant }]
  typeParams := [{ name := "T" }]

/-- A shared reference to an instance that holds a mutable reference to a shared one. -/
def handlerRef (outer handled held inner : String) : Ty :=
  .ref outer false (.adt handler [handled] [.ref held true (.ref inner false (.scalar "i32"))])

/-- The first of three types of one shape. -/
def firstHandler : Ty :=
  handlerRef "a" "b" "c" "d"

/-- The type between the other two. -/
def middleHandler : Ty :=
  handlerRef "p" "b" "r" "s"

/-- The last of the three types. -/
def lastHandler : Ty :=
  handlerRef "x" "y" "c" "z"

end Sample

/-- From the first of the types to the last a pair is trivial that is none on the way, and the other
pairs are made of those on the way. At the invariant position both directions are asked for, also of
the contravariant lifetime. -/
theorem Ty.relate_handlers :
    Sample.middleHandler.WellFormed ∧ Sample.firstHandler.NoBivariant ∧
      Sample.firstHandler.shape = Sample.middleHandler.shape ∧
      Sample.middleHandler.shape = Sample.lastHandler.shape ∧
      relate .contravariant Sample.firstHandler Sample.middleHandler =
        .ok [("p", "a"), ("r", "c"), ("d", "s"), ("s", "d")] ∧
      relate .contravariant Sample.middleHandler Sample.lastHandler =
        .ok [("x", "p"), ("b", "y"), ("c", "r"), ("s", "z"), ("z", "s")] ∧
      relate .contravariant Sample.firstHandler Sample.lastHandler =
        .ok [("x", "a"), ("b", "y"), ("d", "z"), ("z", "d")] ∧
      (∀ pair ∈ [("x", "a"), ("b", "y"), ("d", "z"), ("z", "d")],
        Relation.ReflTransGen (fun a b => (a, b) ∈
          [("p", "a"), ("r", "c"), ("d", "s"), ("s", "d")] ++
            [("x", "p"), ("b", "y"), ("c", "r"), ("s", "z"), ("z", "s")]) pair.1 pair.2) ∧
      ∃ invariant, relate .invariant Sample.firstHandler Sample.middleHandler = .ok invariant ∧
        ∀ pair, pair ∈ invariant ↔ pair ∈ [("a", "p"), ("c", "r"), ("d", "s"), ("s", "d")] ++
          [("p", "a"), ("r", "c"), ("d", "s"), ("s", "d")] := by
  have hfirst : relate .contravariant Sample.firstHandler Sample.middleHandler =
      .ok [("p", "a"), ("r", "c"), ("d", "s"), ("s", "d")] := rfl
  have hsecond : relate .contravariant Sample.middleHandler Sample.lastHandler =
      .ok [("x", "p"), ("b", "y"), ("c", "r"), ("s", "z"), ("z", "s")] := rfl
  have hwhole : relate .contravariant Sample.firstHandler Sample.lastHandler =
      .ok [("x", "a"), ("b", "y"), ("d", "z"), ("z", "d")] := rfl
  have hforward : relate .covariant Sample.firstHandler Sample.middleHandler =
      .ok [("a", "p"), ("c", "r"), ("d", "s"), ("s", "d")] := rfl
  have hwell : Sample.middleHandler.WellFormed := ⟨rfl, rfl, trivial, trivial⟩
  have hnone : Sample.firstHandler.NoBivariant := by decide
  obtain ⟨-, -, ⟨_, _, _, hst, htu, hsu, hclosure⟩, covariant, contravariant, invariant, hcovariant,
    hcontravariant, hinvariant, hmem, hmem'⟩ :=
    relate_preorder .contravariant Sample.firstHandler Sample.middleHandler Sample.lastHandler hwell
      rfl rfl
  cases hfirst.symm.trans hst
  cases hsecond.symm.trans htu
  cases hwhole.symm.trans hsu
  cases hfirst.symm.trans hcontravariant
  cases hforward.symm.trans hcovariant
  exact ⟨hwell, hnone, rfl, rfl, hfirst, hsecond, hwhole, hclosure, invariant, hinvariant,
    fun pair => ⟨hmem' hnone pair, hmem pair⟩⟩

end RegionInference
