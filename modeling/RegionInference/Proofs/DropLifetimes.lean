import Mathlib
import RegionInference.Proofs.BodyConstraints
import RegionInference.Proofs.FirstOccurrences

/-!
# The lifetimes that a drop may touch

Dropping a value runs the destructors of the instances inside it that are not behind a reference
(`Ty.DroppedIn`). Such a destructor may touch the lifetimes among its arguments, and whatever its
type arguments mention, as far as the parameters may not dangle (`Ty.DestructorTouches`).
`Ty.dropLifetimes_exact` says that `Ty.dropLifetimes` lists just these lifetimes, each once, and
that they are lifetimes of the type.

Two walks are nested here. The walk over the destructors stops at references, while the walk over
the lifetimes of an argument does not, so each of them is first compared with a relation of its own:
`Ty.mem_lifetimeWalk` with the mentions of a lifetime, `Ty.mem_dropWalk` with the destructors that
are run. An argument whose parameter may dangle is left out by the destructor around it only; the
destructors inside it are run all the same.

What the destructor of a local needs is listed in the order in which the type mentions the
lifetimes first, which is not the order of the destructors.
-/

namespace RegionInference

namespace Ty

variable {l : String}

/-! ### The lifetimes of a type -/

/-- The lifetime stands somewhere in the type. -/
inductive Mentions : Ty → String → Prop where
  /-- It is the lifetime of a reference. -/
  | ref (lifetime : String) (mutable : Bool) (referent : Ty) :
      Mentions (.ref lifetime mutable referent) lifetime
  /-- It stands behind a reference. -/
  | referent {lifetime : String} {mutable : Bool} {referent : Ty} {l : String} :
      referent.Mentions l → Mentions (.ref lifetime mutable referent) l
  /-- It is an argument of an instance. -/
  | lifetime {decl : AdtDecl} {lifetimes : List String} {args : List Ty} {l : String} :
      l ∈ lifetimes → Mentions (.adt decl lifetimes args) l
  /-- It stands in a type argument of an instance. -/
  | arg {decl : AdtDecl} {lifetimes : List String} {args : List Ty} {arg : Ty} {l : String} :
      arg ∈ args → arg.Mentions l → Mentions (.adt decl lifetimes args) l

/-- The walk over some types meets what the walks over each of them meet. -/
theorem mem_lifetimeWalks {tys : List Ty} :
    l ∈ lifetimeWalks tys ↔ ∃ ty ∈ tys, l ∈ ty.lifetimeWalk := by
  induction tys with
  | nil => simp [lifetimeWalks]
  | cons ty tys ih => simp [lifetimeWalks, ih]

mutual

/-- What the walk over a type meets, the type mentions. -/
theorem mentions_of_mem_walk : (ty : Ty) → l ∈ ty.lifetimeWalk → ty.Mentions l
  | .scalar _, h => by simp [lifetimeWalk] at h
  | .ref lifetime mutable referent, h => by
    rw [lifetimeWalk, List.mem_cons] at h
    rcases h with rfl | h
    · exact .ref l mutable referent
    · exact .referent (mentions_of_mem_walk referent h)
  | .adt _ _ args, h => by
    rw [lifetimeWalk, List.mem_append] at h
    rcases h with h | h
    · exact .lifetime h
    · obtain ⟨arg, harg, hmentions⟩ := mentions_of_mem_walks args h
      exact .arg harg hmentions

/-- What the walk over some types meets, one of them mentions. -/
theorem mentions_of_mem_walks : (tys : List Ty) → l ∈ lifetimeWalks tys → ∃ ty ∈ tys, ty.Mentions l
  | [], h => by simp [lifetimeWalks] at h
  | ty :: tys, h => by
    rw [lifetimeWalks, List.mem_append] at h
    rcases h with h | h
    · exact ⟨ty, List.mem_cons_self, mentions_of_mem_walk ty h⟩
    · obtain ⟨other, hother, hmentions⟩ := mentions_of_mem_walks tys h
      exact ⟨other, List.mem_cons_of_mem _ hother, hmentions⟩

end

/-- The walk over a type meets exactly the lifetimes that it mentions. -/
theorem mem_lifetimeWalk {ty : Ty} : l ∈ ty.lifetimeWalk ↔ ty.Mentions l := by
  constructor
  · exact mentions_of_mem_walk ty
  · intro h
    induction h with
    | ref lifetime mutable referent => simp [lifetimeWalk]
    | referent _ ih => simp [lifetimeWalk, ih]
    | lifetime hmem => simp [lifetimeWalk, hmem]
    | arg harg _ ih =>
      rw [lifetimeWalk, List.mem_append]
      exact .inr (mem_lifetimeWalks.2 ⟨_, harg, ih⟩)

/-- The lifetimes of a type are those that it mentions. -/
theorem mem_lifetimes {ty : Ty} : l ∈ ty.lifetimes ↔ ty.Mentions l := by
  rw [lifetimes, List.mem_eraseDups, mem_lifetimeWalk]

/-! ### The destructors of a type -/

/-- Dropping a value of the type drops a value of the inner one: either it is the type itself, or
it is reached through type arguments of instances, and never through a reference. -/
inductive DroppedIn (inner : Ty) : Ty → Prop where
  /-- The value itself is dropped. -/
  | self : DroppedIn inner inner
  /-- With an instance its arguments are dropped. -/
  | arg {decl : AdtDecl} {lifetimes : List String} {args : List Ty} {arg : Ty} :
      arg ∈ args → DroppedIn inner arg → DroppedIn inner (.adt decl lifetimes args)

/-- The destructor of an instance may touch a lifetime. -/
inductive DestructorTouches (decl : AdtDecl) (lifetimes : List String) (args : List Ty)
    (l : String) : Prop where
  /-- The lifetime is an argument, and its parameter may not dangle. -/
  | lifetime {i : Nat} {param : AdtParam} : decl.hasDestructor = true →
      decl.lifetimeParams[i]? = some param → param.mayDangle = false →
      lifetimes[i]? = some l → DestructorTouches decl lifetimes args l
  /-- The lifetime is mentioned by a type argument, whose parameter may not dangle. -/
  | arg {i : Nat} {param : AdtParam} {arg : Ty} : decl.hasDestructor = true →
      decl.typeParams[i]? = some param → param.mayDangle = false →
      args[i]? = some arg → arg.Mentions l → DestructorTouches decl lifetimes args l

/-- A destructor that is run when a value of the type is dropped may touch the lifetime. -/
def DropTouches (ty : Ty) (l : String) : Prop :=
  ∃ decl lifetimes args, DroppedIn (.adt decl lifetimes args) ty ∧
    DestructorTouches decl lifetimes args l

variable {decl : AdtDecl} {ls : List String} {args : List Ty}

/-- The arguments that are kept are those whose parameters may not dangle. -/
theorem mem_keptArgs {α : Type} {params : List AdtParam} {items : List α} {item : α} :
    item ∈ keptArgs params items ↔
      ∃ (i : Nat) (param : AdtParam), params[i]? = some param ∧ param.mayDangle = false ∧
        items[i]? = some item := by
  simp only [keptArgs, List.mem_filterMap, Prod.exists]
  constructor
  · rintro ⟨param, item', hpair, hkept⟩
    split at hkept
    · simp at hkept
    · next hdangles =>
      obtain rfl : item' = item := by simpa using hkept
      obtain ⟨i, hi⟩ := List.mem_iff_getElem?.1 hpair
      obtain ⟨hparam, hitem⟩ := List.getElem?_zip_eq_some.1 hi
      exact ⟨i, param, hparam, by simpa using hdangles, hitem⟩
  · rintro ⟨i, param, hparam, hdangles, hitem⟩
    refine ⟨param, item, ?_, by simp [hdangles]⟩
    exact List.mem_iff_getElem?.2 ⟨i, List.getElem?_zip_eq_some.2 ⟨hparam, hitem⟩⟩

/-- What the walk over the destructors takes from one instance. -/
theorem mem_touched : l ∈ (if decl.hasDestructor then
      keptArgs decl.lifetimeParams ls ++ (keptArgs decl.typeParams args).flatMap Ty.lifetimes
    else []) ↔ DestructorTouches decl ls args l := by
  by_cases hdestructor : decl.hasDestructor = true
  · simp only [if_pos hdestructor, List.mem_append, List.mem_flatMap, mem_keptArgs, mem_lifetimes]
    constructor
    · rintro (⟨i, param, hparam, hdangles, hl⟩ | ⟨arg, ⟨i, param, hparam, hdangles, harg⟩, hl⟩)
      · exact .lifetime hdestructor hparam hdangles hl
      · exact .arg hdestructor hparam hdangles harg hl
    · rintro (⟨_, hparam, hdangles, hl⟩ | ⟨_, hparam, hdangles, harg, hl⟩)
      · exact .inl ⟨_, _, hparam, hdangles, hl⟩
      · exact .inr ⟨_, ⟨_, _, hparam, hdangles, harg⟩, hl⟩
  · simp only [if_neg hdestructor, List.not_mem_nil, false_iff]
    rintro (⟨h, _⟩ | ⟨h, _⟩)
    · exact hdestructor h
    · exact hdestructor h

/-- What the drop of an argument touches, the drop of the whole touches. -/
theorem DropTouches.arg {arg : Ty} (harg : arg ∈ args) (h : arg.DropTouches l) :
    (Ty.adt decl ls args).DropTouches l := by
  obtain ⟨decl', lifetimes', args', hdropped, htouches⟩ := h
  exact ⟨decl', lifetimes', args', .arg harg hdropped, htouches⟩

mutual

/-- What the walk for a drop meets, the drop touches. -/
theorem dropTouches_of_mem_walk : (ty : Ty) → l ∈ ty.dropWalk → ty.DropTouches l
  | .scalar _, h => by simp [dropWalk] at h
  | .ref _ _ _, h => by simp [dropWalk] at h
  | .adt decl lifetimes args, h => by
    rw [dropWalk, List.mem_append] at h
    rcases h with h | h
    · exact ⟨decl, lifetimes, args, .self, mem_touched.1 h⟩
    · obtain ⟨arg, harg, htouches⟩ := dropTouches_of_mem_walks args h
      exact .arg harg htouches

/-- What the walk for the drops of some types meets, the drop of one of them touches. -/
theorem dropTouches_of_mem_walks :
    (tys : List Ty) → l ∈ dropWalks tys → ∃ ty ∈ tys, ty.DropTouches l
  | [], h => by simp [dropWalks] at h
  | ty :: tys, h => by
    rw [dropWalks, List.mem_append] at h
    rcases h with h | h
    · exact ⟨ty, List.mem_cons_self, dropTouches_of_mem_walk ty h⟩
    · obtain ⟨other, hother, htouches⟩ := dropTouches_of_mem_walks tys h
      exact ⟨other, List.mem_cons_of_mem _ hother, htouches⟩

end

/-- The walk for the drops of some types meets what the walks for each of them meet. -/
theorem mem_dropWalks {tys : List Ty} : l ∈ dropWalks tys ↔ ∃ ty ∈ tys, l ∈ ty.dropWalk := by
  induction tys with
  | nil => simp [dropWalks]
  | cons ty tys ih => simp [dropWalks, ih]

/-- The walk over the destructors finds what they may touch. -/
theorem mem_dropWalk {ty : Ty} : l ∈ ty.dropWalk ↔ ty.DropTouches l := by
  constructor
  · exact dropTouches_of_mem_walk ty
  · rintro ⟨decl, lifetimes, args, hdropped, htouches⟩
    induction hdropped with
    | self =>
      rw [dropWalk, List.mem_append]
      exact .inl (mem_touched.2 htouches)
    | arg harg _ ih =>
      rw [dropWalk, List.mem_append]
      exact .inr (mem_dropWalks.2 ⟨_, harg, ih⟩)

/-- The lifetimes that matter for a drop are those that the drop touches. -/
theorem mem_dropLifetimes {ty : Ty} : l ∈ ty.dropLifetimes ↔ ty.DropTouches l := by
  rw [dropLifetimes, List.mem_eraseDups, mem_dropWalk]

/-- A destructor touches lifetimes of its instance only. -/
theorem DestructorTouches.mentions (h : DestructorTouches decl ls args l) :
    (Ty.adt decl ls args).Mentions l := by
  rcases h with ⟨_, _, _, hl⟩ | ⟨_, _, _, harg, hl⟩
  · exact .lifetime (List.mem_of_getElem? hl)
  · exact .arg (List.mem_of_getElem? harg) hl

/-- What a part mentions that is dropped with a type, the type mentions. -/
theorem DroppedIn.mentions {inner ty : Ty} (h : DroppedIn inner ty) (hl : inner.Mentions l) :
    ty.Mentions l := by
  induction h with
  | self => exact hl
  | arg harg _ ih => exact .arg harg ih

/-- A drop touches only what the type mentions. -/
theorem DropTouches.mentions {ty : Ty} (h : ty.DropTouches l) : ty.Mentions l := by
  obtain ⟨decl, lifetimes, args, hdropped, htouches⟩ := h
  exact hdropped.mentions htouches.mentions

end Ty

/-! ### Locals -/

namespace Body

/-- What the destructor of a local leaves alone is read off its type, as it is where the parts of a
body do not say otherwise. -/
def DanglesByType (body : Body) : Prop :=
  ∀ v l, body.mayDangle v l = decide (l ∉ v.ty.dropLifetimes)

/-- What may not dangle when a local is dropped, where the types alone decide it. -/
theorem nonDangling_of_var {body : Body} (h : body.DanglesByType) {name : String} {v : Variable}
    (hv : body.var name = .ok v) :
    body.nonDangling name = .ok (v.ty.lifetimes.filter (· ∈ v.ty.dropLifetimes)) := by
  rw [nonDangling, hv]
  apply congrArg Except.ok
  refine List.filter_congr fun l _ => ?_
  simp [h v l]

end Body

/-- The lifetimes that a drop may touch are listed once each, are lifetimes of the type, and are
those that a destructor may touch which is run by the drop. Where this is what decides about the
destructors of locals, the destructor of a local of the type needs just these lifetimes, and they
are given in the order in which the type mentions them first. -/
theorem Ty.dropLifetimes_exact (ty : Ty) :
    ty.dropLifetimes.Nodup ∧
    (∀ l ∈ ty.dropLifetimes, l ∈ ty.lifetimes) ∧
    (∀ l, l ∈ ty.dropLifetimes ↔ ∃ decl lifetimes args,
      DroppedIn (.adt decl lifetimes args) ty ∧ DestructorTouches decl lifetimes args l) ∧
    ∀ (body : Body) (name : String) (v : Variable), body.DanglesByType →
      body.var name = .ok v → v.ty = ty →
      ∃ needed, body.nonDangling name = .ok needed ∧
        (∀ l, l ∈ needed ↔ l ∈ ty.dropLifetimes) ∧
        needed.Pairwise fun l l' => ty.lifetimeWalk.idxOf l < ty.lifetimeWalk.idxOf l' := by
  have hsubset : ∀ l ∈ ty.dropLifetimes, l ∈ ty.lifetimes := by
    intro l hl
    exact mem_lifetimes.2 (mem_dropLifetimes.1 hl).mentions
  refine ⟨nodup_eraseDups _, hsubset, fun l => mem_dropLifetimes, ?_⟩
  rintro body name v hdefault hv rfl
  refine ⟨_, Body.nonDangling_of_var hdefault hv, fun l => ?_, ?_⟩
  · simp only [List.mem_filter, decide_eq_true_eq, and_iff_right_iff_imp]
    exact hsubset l
  · exact (pairwise_idxOf_eraseDups v.ty.lifetimeWalk).filter _

/-! ### A destructor around another -/

namespace Sample

/-- A destructor that touches the data of its second type parameter only. -/
def guardDecl : AdtDecl :=
  { name := "Guard"
    lifetimeParams := [{ name := "r", mayDangle := true }]
    typeParams := [{ name := "T", mayDangle := true }, { name := "U" }]
    hasDestructor := true }

/-- A destructor that touches all data. -/
def bufferDecl : AdtDecl :=
  { name := "Buffer", typeParams := [{ name := "T" }], hasDestructor := true }

/-- The argument that may dangle has a destructor of its own. -/
def guardTy : Ty :=
  .adt guardDecl ["g"] [
    .adt bufferDecl [] [.ref "a" false (.scalar "i32")],
    .ref "b" true (.ref "a" false (.adt bufferDecl [] [.ref "c" false (.scalar "i32")]))]

/-- A local that is dropped. -/
def guarded : Body where
  name := "guarded"
  graph :=
    .build [{ name := "A", statements := [.drop "v"] }] "A" (by decide) (by decide) (by decide)
  vars := [⟨"v", guardTy⟩]
  valid := by decide

end Sample

/-- The outer destructor comes first and touches what its second argument mentions, behind the
references as well. The inner one, in the argument that may dangle, is run all the same. The
lifetimes are needed in the order in which the type mentions them. -/
theorem Ty.guard_drop_touches : Sample.guardTy.dropLifetimes = ["b", "a", "c"] ∧
    Sample.guarded.DanglesByType ∧ Sample.guarded.var "v" = .ok ⟨"v", Sample.guardTy⟩ ∧
    (∃ decl lifetimes args, DroppedIn (.adt decl lifetimes args) Sample.guardTy ∧
      DestructorTouches decl lifetimes args "a") ∧
    ∃ needed, Sample.guarded.nonDangling "v" = .ok needed ∧ needed = ["a", "b", "c"] ∧
      (∀ l, l ∈ needed ↔ l ∈ Sample.guardTy.dropLifetimes) := by
  have hdrop : Sample.guardTy.dropLifetimes = ["b", "a", "c"] := by decide
  have hdefault : Sample.guarded.DanglesByType := fun _ _ => rfl
  have hvar : Sample.guarded.var "v" = .ok ⟨"v", Sample.guardTy⟩ := rfl
  obtain ⟨-, -, htouches, hlocal⟩ := Sample.guardTy.dropLifetimes_exact
  obtain ⟨needed, hneeded, hmem, -⟩ := hlocal _ _ _ hdefault hvar rfl
  have hlist : Sample.guarded.nonDangling "v" = .ok ["a", "b", "c"] := rfl
  refine ⟨hdrop, hdefault, hvar, (htouches "a").1 ?_, needed, hneeded, ?_, hmem⟩
  · simp [hdrop]
  · exact Except.ok.inj (hneeded.symm.trans hlist)

end RegionInference
