import RegionInference.Proofs.Subtyping
import RegionInference.Proofs.UseSites

/-!
# Types that do not fit

The shape of a type is what is left of it without its lifetimes. Relating two types comes to pairs
of their own lifetimes, or to a mismatch; for well-formed types it is a mismatch iff the shapes
differ (`Ty.ends_relate`).

A body relates the type of each stored value to that of its place, the types of arguments to those
of the parameters, and what its subtype obligations name (`Body.Relates`). All of these are types
over the lifetimes of the body (`Body.Knows`). So collecting the demands of a body ends with demands
that its set of constraints takes, or with a mismatch, and with the latter iff two of the types it
relates have different shapes (`Demand.ends_ofBody`, `Body.shape_eq_of_ofBody`).
-/

namespace RegionInference

/-! ### How results end -/

/-- A result is a value with one property or a fault with another. -/
def Ends (value : α → Prop) (fault : ε → Prop) : Except ε α → Prop
  | .ok a => value a
  | .error e => fault e

namespace Ends

variable {value : α → Prop} {fault : ε → Prop} {result : Except ε α}

/-- A result ends in ways that are weaker, too. -/
theorem imp {value' : α → Prop} {fault' : ε → Prop} (h : Ends value fault result)
    (hvalue : ∀ a, value a → value' a) (hfault : ∀ e, fault e → fault' e) :
    Ends value' fault' result := by
  cases result with
  | ok a => exact hvalue a h
  | error e => exact hfault e h

/-- A chain of two steps ends as the second does after each value of the first. -/
theorem bind {value' : β → Prop} {f : α → Except ε β} (h : Ends value fault result)
    (hnext : ∀ a, value a → Ends value' fault (f a)) : Ends value' fault (result >>= f) := by
  cases result with
  | ok a => exact hnext a h
  | error e => exact h

/-- Behind a value, a chain ends as its second step. -/
theorem bind_of_eq_ok {value' : β → Prop} {f : α → Except ε β} {a : α} (h : result = .ok a)
    (hnext : Ends value' fault (f a)) : Ends value' fault (result >>= f) := by
  rw [h]
  exact hnext

/-- Behind a fault, a chain ends with the fault. -/
theorem bind_of_eq_error {value' : β → Prop} {f : α → Except ε β} {e : ε} (h : result = .error e)
    (hfault : fault e) : Ends value' fault (result >>= f) := by
  rw [h]
  exact hfault

/-- What is made of a value ends as the value. -/
theorem map {value' : β → Prop} {f : α → β} (h : Ends value fault result)
    (hnext : ∀ a, value a → value' (f a)) : Ends value' fault (result.map f) := by
  cases result with
  | ok a => exact hnext a h
  | error e => exact h

/-- A step for each item of a list ends with all values or with one of the faults. -/
theorem mapM {value : β → Prop} {f : α → Except ε β} {items : List α}
    (h : ∀ a ∈ items, Ends value fault (f a)) :
    Ends (fun results => ∀ b ∈ results, value b) fault (items.mapM f) := by
  induction items with
  | nil =>
    intro b hb
    cases hb
  | cons a items ih =>
    rw [List.mapM_cons]
    refine (h a List.mem_cons_self).bind fun b hb => ?_
    refine (ih fun a' ha' => h a' (List.mem_cons_of_mem _ ha')).bind fun results hresults => ?_
    intro b' hb'
    rcases List.mem_cons.1 hb' with rfl | hrest
    · exact hb
    · exact hresults b' hrest

/-- Steps taken in turn end with what each of them keeps, or with one of the faults. -/
theorem foldlM {f : α → β → Except ε α} {items : List β} {start : α}
    (h : ∀ b ∈ items, ∀ a, value a → Ends value fault (f a b)) (hstart : value start) :
    Ends value fault (items.foldlM f start) := by
  induction items generalizing start with
  | nil => exact hstart
  | cons b items ih =>
    rw [List.foldlM_cons]
    apply (h b List.mem_cons_self start hstart).bind
    intro next hnext
    exact ih (fun b' hb' => h b' (List.mem_cons_of_mem _ hb')) hnext

/-- What cannot end with a fault ends with a value. -/
theorem exists_ok (h : Ends value (fun _ : ε => False) result) : ∃ a, result = .ok a ∧ value a := by
  cases result with
  | ok a => exact ⟨a, rfl, h⟩
  | error e => exact h.elim

/-- A value that is known ends as it does. -/
theorem of_eq_ok {a : α} (hresult : result = .ok a) (h : value a) : Ends value fault result := by
  rw [hresult]
  exact h

end Ends

/-- A type without its lifetimes. -/
inductive Shape where
  /-- The shape of a type that has no lifetimes. -/
  | scalar (name : String)
  /-- The shape of a reference. -/
  | ref (mutable : Bool) (referent : Shape)
  /-- The shape of an instance of a declared type. -/
  | adt (decl : AdtDecl) (args : List Shape)

namespace Ty

mutual

/-- The type without its lifetimes. -/
def shape : Ty → Shape
  | .scalar name => .scalar name
  | .ref _ mutable referent => .ref mutable referent.shape
  | .adt decl _ args => .adt decl (shapes args)

/-- The types of a list without their lifetimes. -/
def shapes : List Ty → List Shape
  | [] => []
  | ty :: tys => ty.shape :: shapes tys

end

/-! ### What relating two types comes to -/

/-- Both parts of a pair are among some names. -/
def Among (names : List String) (pair : String × String) : Prop :=
  pair.1 ∈ names ∧ pair.2 ∈ names

/-- A pair among some names is among more names. -/
theorem Among.mono {names names' : List String} {pair : String × String} (h : Among names pair)
    (hsub : ∀ l ∈ names, l ∈ names') : Among names' pair :=
  ⟨hsub _ h.1, hsub _ h.2⟩

/-- Relating two lifetimes asks for pairs of the two. -/
theorem among_of_outlivesAt {a b : String} {variance : Variance} {pair : String × String}
    (h : pair ∈ outlivesAt a b variance) : Among [a, b] pair := by
  cases variance <;> simp [outlivesAt] at h
  · simp [h, Among]
  · simp [h, Among]
  · rcases h with rfl | rfl <;> simp [Among]

/-- Relating lifetime arguments asks for pairs of them. -/
theorem among_of_relateLifetimes {variance : Variance} {params : List AdtParam}
    {as bs : List String} {pair : String × String}
    (h : pair ∈ relateLifetimes variance params as bs) : Among (as ++ bs) pair := by
  induction params generalizing as bs with
  | nil => simp [relateLifetimes] at h
  | cons param params ih =>
    cases as with
    | nil => simp [relateLifetimes] at h
    | cons a as =>
      cases bs with
      | nil => simp [relateLifetimes] at h
      | cons b bs =>
        rw [relateLifetimes, List.mem_append] at h
        rcases h with hfirst | hrest
        · exact (among_of_outlivesAt hfirst).mono (by simp)
        · refine (ih hrest).mono fun l hl => ?_
          rcases List.mem_append.1 hl with ha | hb
          · exact List.mem_append_left _ (List.mem_cons_of_mem _ ha)
          · exact List.mem_append_right _ (List.mem_cons_of_mem _ hb)

/-- Pairs of some names, which come only from equal shapes if all is well formed. -/
def Pairs (wellFormed equal : Prop) (names : List String) (pairs : List (String × String)) : Prop :=
  (wellFormed → equal) ∧ ∀ pair ∈ pairs, Among names pair

/-- A mismatch, which comes only from different shapes. -/
def Differ (equal : Prop) (error : TypeError) : Prop :=
  ¬ equal ∧ ∃ sub sup, error = .mismatch sub sup

mutual

/-- Relating types comes to pairs of their lifetimes or to a mismatch, as their shapes are equal or
not. -/
theorem ends_relatePairs (variance : Variance) : ∀ s t : Ty,
    Ends (Pairs (s.WellFormed ∧ t.WellFormed) (s.shape = t.shape)
      (s.lifetimeWalk ++ t.lifetimeWalk)) (Differ (s.shape = t.shape)) (relatePairs variance s t)
  | .scalar a, t => by
    cases t with
    | scalar b =>
      rw [relatePairs]
      split
      · next heq => exact ⟨fun _ => by rw [heq], by simp⟩
      · next hne => exact ⟨by simpa [shape] using hne, _, _, rfl⟩
    | ref b mutable referent => exact ⟨nofun, _, _, rfl⟩
    | adt decl lifetimes args => exact ⟨nofun, _, _, rfl⟩
  | .ref a mutable s, t => by
    cases t with
    | scalar b => exact ⟨nofun, _, _, rfl⟩
    | ref b mutable' t =>
      rw [relatePairs]
      split
      · next heq =>
        subst heq
        have hinside := ends_relatePairs (variance.compose (referentVariance mutable)) s t
        have hdiffer : ∀ error, Differ (s.shape = t.shape) error →
            Differ (shape (.ref a mutable s) = shape (.ref b mutable t)) error :=
          fun error herror => ⟨fun heq => herror.1 (Shape.ref.inj heq).2, herror.2⟩
        refine (hinside.imp (fun _ => id) hdiffer).bind fun pairs hpairs =>
          ⟨fun hwell => ?_, fun pair hpair => ?_⟩
        · rw [shape, shape, hpairs.1 hwell]
        · rcases List.mem_append.1 hpair with hfirst | hrest
          · exact (among_of_outlivesAt hfirst).mono (by simp [lifetimeWalk])
          · refine (hpairs.2 pair hrest).mono fun l hl => ?_
            rcases List.mem_append.1 hl with hs | ht
            · exact List.mem_append_left _ (List.mem_cons_of_mem _ hs)
            · exact List.mem_append_right _ (List.mem_cons_of_mem _ ht)
      · next hne => exact ⟨fun heq => hne (Shape.ref.inj heq).1, _, _, rfl⟩
    | adt decl lifetimes args => exact ⟨nofun, _, _, rfl⟩
  | .adt decl as args, t => by
    cases t with
    | scalar b => exact ⟨nofun, _, _, rfl⟩
    | ref b mutable referent => exact ⟨nofun, _, _, rfl⟩
    | adt decl' bs args' =>
      rw [relatePairs]
      split
      · next heq =>
        subst heq
        have hinside := ends_relateArgs variance decl.typeParams args args'
        have hdiffer : ∀ error, Differ (shapes args = shapes args') error →
            Differ (shape (.adt decl as args) = shape (.adt decl bs args')) error :=
          fun error herror => ⟨fun heq => herror.1 (Shape.adt.inj heq).2, herror.2⟩
        refine (hinside.imp (fun _ => id) hdiffer).bind fun pairs hpairs =>
          ⟨?_, fun pair hpair => ?_⟩
        · rintro ⟨⟨-, hlength, hargs⟩, -, hlength', hargs'⟩
          rw [shape, shape, hpairs.1 ⟨hlength, hlength', hargs, hargs'⟩]
        · rcases List.mem_append.1 hpair with hfirst | hrest
          · refine (among_of_relateLifetimes hfirst).mono fun l hl => ?_
            rcases List.mem_append.1 hl with ha | hb
            · exact List.mem_append_left _ (List.mem_append_left _ ha)
            · exact List.mem_append_right _ (List.mem_append_left _ hb)
          · refine (hpairs.2 pair hrest).mono fun l hl => ?_
            rcases List.mem_append.1 hl with hs | ht
            · exact List.mem_append_left _ (List.mem_append_right _ hs)
            · exact List.mem_append_right _ (List.mem_append_right _ ht)
      · next hne => exact ⟨fun heq => hne (Shape.adt.inj heq).1, _, _, rfl⟩

/-- Relating lists of type arguments comes to pairs of their lifetimes or to a mismatch. -/
theorem ends_relateArgs (variance : Variance) : ∀ (params : List AdtParam) (args args' : List Ty),
    Ends (Pairs (args.length = params.length ∧ args'.length = params.length ∧
        AllWellFormed args ∧ AllWellFormed args') (shapes args = shapes args')
      (lifetimeWalks args ++ lifetimeWalks args')) (Differ (shapes args = shapes args'))
      (relateArgs variance params args args')
  | params, [], args' => by
    have hresult : relateArgs variance params [] args' = .ok [] := by
      cases params <;> simp [relateArgs]
    refine .of_eq_ok hresult ⟨?_, by simp⟩
    rintro ⟨hlength, hlength', -⟩
    rw [List.length_eq_zero_iff.1 (hlength'.trans hlength.symm)]
  | params, s :: args, args' => by
    cases params with
    | nil => exact ⟨fun hwell => absurd hwell.1 (by simp), by simp⟩
    | cons param params =>
      cases args' with
      | nil => exact ⟨fun hwell => absurd hwell.2.1 (by simp), by simp⟩
      | cons t args' =>
        rw [relateArgs]
        have hdiffer : ∀ error, Differ (s.shape = t.shape) error →
            Differ (shapes (s :: args) = shapes (t :: args')) error :=
          fun error herror => ⟨fun heq => herror.1 (List.cons.inj heq).1, herror.2⟩
        have hdiffer' : ∀ error, Differ (shapes args = shapes args') error →
            Differ (shapes (s :: args) = shapes (t :: args')) error :=
          fun error herror => ⟨fun heq => herror.1 (List.cons.inj heq).2, herror.2⟩
        have hfirst := ends_relatePairs (variance.compose param.variance) s t
        refine (hfirst.imp (fun _ => id) hdiffer).bind fun first hfirst => ?_
        have hothers := ends_relateArgs variance params args args'
        refine (hothers.imp (fun _ => id) hdiffer').bind fun others hothers =>
          ⟨?_, fun pair hpair => ?_⟩
        · rintro ⟨hlength, hlength', ⟨hs, hargs⟩, ht, hargs'⟩
          rw [shapes, shapes, hfirst.1 ⟨hs, ht⟩, hothers.1 ⟨Nat.succ.inj hlength,
            Nat.succ.inj hlength', hargs, hargs'⟩]
        · rw [lifetimeWalks, lifetimeWalks]
          rcases List.mem_append.1 hpair with hpair | hpair
          · exact (hfirst.2 pair hpair).mono (by simp +contextual [or_imp])
          · exact (hothers.2 pair hpair).mono (by simp +contextual [or_imp])

end

/-- Leaving out repetitions and trivial pairs changes nothing of this. -/
theorem ends_relate (variance : Variance) (s t : Ty) :
    Ends (Pairs (s.WellFormed ∧ t.WellFormed) (s.shape = t.shape)
      (s.lifetimeWalk ++ t.lifetimeWalk)) (Differ (s.shape = t.shape)) (relate variance s t) := by
  refine (ends_relatePairs variance s t).map fun pairs hpairs => ⟨hpairs.1, fun pair hpair => ?_⟩
  exact hpairs.2 pair (List.mem_filter.1 (List.mem_eraseDups.1 hpair)).1

/-- What projections lead to is part of the type. -/
theorem of_project? {ty inner : Ty} {steps : List Projection} (h : ty.project? steps = some inner) :
    (∀ l ∈ inner.lifetimeWalk, l ∈ ty.lifetimeWalk) ∧ (ty.WellFormed → inner.WellFormed) := by
  fun_induction project? ty steps with
  | case1 ty =>
    cases h
    exact ⟨fun _ => id, id⟩
  | case2 lifetime mutable referent steps ih =>
    obtain ⟨hwalk, hwell⟩ := ih h
    exact ⟨fun l hl => List.mem_cons_of_mem _ (hwalk l hl), hwell⟩
  | case3 decl lifetimes first args steps ih =>
    obtain ⟨hwalk, hwell⟩ := ih h
    refine ⟨fun l hl => List.mem_append_right _ (List.mem_append_left _ (hwalk l hl)), ?_⟩
    rintro ⟨-, -, hfirst, -⟩
    exact hwell hfirst
  | case4 => cases h

end Ty

/-! ### The types that a body relates -/

/-- The types that an element names. -/
def Element.types : Element → List Ty
  | .stmt (.assign _ (.call _ _ params result)) => params ++ result.toList
  | _ => []

/-- The types that an obligation names. -/
def Obligation.types : Obligation → List Ty
  | .outlives _ _ _ => []
  | .subtype sub sup _ _ => [sub, sup]

namespace Body

/-- The types that a body names: those of its locals, of the signatures of calls and of its
obligations. -/
def types (body : Body) : List Ty :=
  body.vars.map Variable.ty ++ body.graph.elementTable.toList.flatMap Element.types ++
    body.obligations.flatMap Obligation.types

/-- Every type that a body names is well formed. -/
def WellFormed (body : Body) : Prop :=
  ∀ ty ∈ body.types, ty.WellFormed

/-- A body relates a type to another: that of a stored value to that of its place, where the result
of a call is stored like any other value; that of an argument to that of its parameter; or what an
obligation names. Only types that are known are related. -/
inductive Relates (body : Body) : Ty → Ty → Prop where
  /-- A value is stored in a place. -/
  | stored {point : Point} {place : Place} {rvalue : Rvalue} {s t : Ty} :
      (point, .stmt (.assign place rvalue)) ∈ body.graph.items →
      body.rvalueType rvalue = .ok (some s) → body.placeType place = .ok (some t) →
      Relates body s t
  /-- An argument is handed to a call, which has a parameter for it. -/
  | argument {point : Point} {place : Place} {func : String} {args : List Operand}
      {params : List Ty} {result : Option Ty} {arg : Operand} {s param : Ty} :
      (point, .stmt (.assign place (.call func args params result))) ∈ body.graph.items →
      (arg, param) ∈ args.zip params → body.operandType arg = .ok (some s) → Relates body s param
  /-- A subtyping is demanded from outside. -/
  | obligation {sub sup : Ty} {point : Point} {variance : Variance} :
      .subtype sub sup point variance ∈ body.obligations → Relates body sub sup

/-- Two types of different shapes are related. -/
def Mismatched (body : Body) : Prop :=
  ∃ s t, body.Relates s t ∧ s.shape ≠ t.shape

/-- A type over the lifetimes of a body, which is well formed if those of the body are. -/
structure Knows (body : Body) (ty : Ty) : Prop where
  /-- The lifetimes are those of the body. -/
  lifetimes : ∀ l ∈ ty.lifetimeWalk, l ∈ body.lifetimes.map Lifetime.name
  /-- The type is well formed. -/
  wellFormed : body.WellFormed → ty.WellFormed

section

variable {body : Body} {point : Point} {element : Element} {place : Place} {rvalue : Rvalue}

/-- An element with its point is one of the elements. -/
theorem mem_elementTable (h : (point, element) ∈ body.graph.items) :
    element ∈ body.graph.elementTable.toList :=
  (List.of_mem_zip h).2

/-- The lifetimes that an element names are lifetimes of the body. -/
theorem mem_lifetimes_of_element (h : (point, element) ∈ body.graph.items) {l : String}
    (hl : l ∈ element.lifetimes) : l ∈ body.lifetimes.map Lifetime.name := by
  apply mem_lifetimes_of_mentioned
  rw [BodyParts.mentioned, List.mem_eraseDups]
  refine List.mem_append_left _ (List.mem_append_right _ ?_)
  exact List.mem_flatMap.2 ⟨element, mem_elementTable h, hl⟩

/-- A body knows the types of its locals. -/
theorem knows_of_var {name : String} {found : Variable} (h : body.var name = .ok found) :
    body.Knows found.ty where
  lifetimes _ hl := mem_lifetimes_of_var h (List.mem_eraseDups.2 hl)
  wellFormed hbody := hbody _ (List.mem_append_left _ (List.mem_append_left _
    (List.mem_map_of_mem (var_eq_ok h).1)))

/-- A body knows the types in its elements. -/
theorem knows_of_element (h : (point, element) ∈ body.graph.items) {ty : Ty}
    (hty : ty ∈ element.types) : body.Knows ty where
  lifetimes l hl := by
    refine mem_lifetimes_of_element h ?_
    unfold Element.types at hty
    split at hty
    · next params result =>
      rcases List.mem_append.1 hty with hparam | hresult
      · refine List.mem_append_left _ (List.mem_flatMap.2 ⟨ty, hparam, ?_⟩)
        exact List.mem_eraseDups.2 hl
      · obtain rfl := Option.mem_toList.1 hresult
        exact List.mem_append_right _ (List.mem_eraseDups.2 hl)
    · cases hty
  wellFormed hbody := hbody _ (List.mem_append_left _ (List.mem_append_right _
    (List.mem_flatMap.2 ⟨element, mem_elementTable h, hty⟩)))

/-- A body knows the types in its obligations. -/
theorem knows_of_obligation {obligation : Obligation} (h : obligation ∈ body.obligations) {ty : Ty}
    (hty : ty ∈ obligation.types) : body.Knows ty where
  lifetimes l hl := by
    apply mem_lifetimes_of_mentioned
    rw [BodyParts.mentioned, List.mem_eraseDups]
    refine List.mem_append_right _ (List.mem_flatMap.2 ⟨obligation, h, ?_⟩)
    cases obligation with
    | outlives longer shorter point => cases hty
    | subtype sub sup point variance =>
      rcases List.mem_pair.1 hty with rfl | rfl
      · exact List.mem_append_left _ (List.mem_eraseDups.2 hl)
      · exact List.mem_append_right _ (List.mem_eraseDups.2 hl)
  wellFormed hbody :=
    hbody _ (List.mem_append_right _ (List.mem_flatMap.2 ⟨obligation, h, hty⟩))

/-- A body knows the types of its places. -/
theorem knows_of_placeType {ty : Ty} (h : body.placeType place = .ok (some ty)) :
    body.Knows ty := by
  obtain ⟨found, hfound, hproject⟩ := exists_of_map_eq_ok h
  obtain ⟨hwalk, hwell⟩ := Ty.of_project? hproject
  have hknows := knows_of_var hfound
  exact ⟨fun l hl => hknows.lifetimes l (hwalk l hl), fun hbody => hwell (hknows.wellFormed hbody)⟩

/-- A body knows the types of its operands. -/
theorem knows_of_operandType {operand : Operand} {ty : Ty}
    (h : body.operandType operand = .ok (some ty)) : body.Knows ty := by
  unfold operandType at h
  split at h
  · exact knows_of_placeType h
  · cases h

/-- A body knows the types of its right sides. -/
theorem knows_of_rvalueType (hitem : (point, .stmt (.assign place rvalue)) ∈ body.graph.items)
    {ty : Ty} (h : body.rvalueType rvalue = .ok (some ty)) : body.Knows ty := by
  cases rvalue with
  | use operand => exact knows_of_operandType h
  | borrow lifetime mutable borrowed =>
    obtain ⟨inner, hinner, hmap⟩ := exists_of_map_eq_ok h
    obtain ⟨referent, rfl, rfl⟩ := Option.map_eq_some_iff.1 hmap
    have hknows := knows_of_placeType hinner
    refine ⟨fun l hl => ?_, hknows.wellFormed⟩
    rcases List.mem_cons.1 hl with rfl | hl
    · exact mem_lifetimes_of_element hitem List.mem_cons_self
    · exact hknows.lifetimes l hl
  | call func args params result =>
    obtain rfl : result = some ty := by simpa [rvalueType] using h
    exact knows_of_element hitem (List.mem_append_right _ (by simp))
  | const value => cases h

/-- The types that a body relates are over its lifetimes. -/
theorem Relates.knows {s t : Ty} (h : body.Relates s t) : body.Knows s ∧ body.Knows t := by
  cases h with
  | stored hitem hvalue hplace =>
    exact ⟨knows_of_rvalueType hitem hvalue, knows_of_placeType hplace⟩
  | argument hitem harg hvalue =>
    exact ⟨knows_of_operandType hvalue,
      knows_of_element hitem (List.mem_append_left _ (List.of_mem_zip harg).2)⟩
  | obligation hmem =>
    exact ⟨knows_of_obligation hmem List.mem_cons_self,
      knows_of_obligation hmem (List.mem_cons_of_mem _ List.mem_cons_self)⟩

end

/-! ### Types are found -/

section

variable {body : Body} {point : Point} {element : Element} {place : Place} {rvalue : Rvalue}

/-- Every local that an element names is declared. -/
theorem exists_var_of_item (h : (point, element) ∈ body.graph.items) {v : String}
    (hv : v ∈ element.names) : ∃ found, body.var v = .ok found := by
  obtain ⟨i, -, helement⟩ := Graph.mem_items.1 h
  exact exists_var helement hv

/-- Whether a place has a type can be told if its local is there. -/
theorem exists_placeType (h : ∃ found, body.var place.base = .ok found) :
    ∃ ty, body.placeType place = .ok ty := by
  obtain ⟨found, hfound⟩ := h
  exact ⟨_, by rw [placeType, hfound]; rfl⟩

/-- Whether an operand has a type can be told if its locals are there. -/
theorem exists_operandType {operand : Operand}
    (h : ∀ v ∈ operand.uses, ∃ found, body.var v = .ok found) :
    ∃ ty, body.operandType operand = .ok ty := by
  unfold operandType
  split
  · next place hplace => exact exists_placeType (h _ (by simp [Operand.uses, hplace]))
  · exact ⟨none, rfl⟩

/-- Whether a right side has a type can be told if its locals are there. -/
theorem exists_rvalueType (h : ∀ v ∈ rvalue.uses, ∃ found, body.var v = .ok found) :
    ∃ ty, body.rvalueType rvalue = .ok ty := by
  cases rvalue with
  | use operand =>
    exact exists_operandType fun v hv => h v (by simpa [Rvalue.uses, Rvalue.operands])
  | borrow lifetime mutable borrowed =>
    obtain ⟨ty, hty⟩ := exists_placeType (h borrowed.base List.mem_cons_self)
    exact ⟨_, by rw [rvalueType, hty]; rfl⟩
  | call func args params result => exact ⟨result, rfl⟩
  | const value => exact ⟨none, rfl⟩

/-- What the right-hand side of an assignment reads, the element names. -/
theorem mem_names_of_uses {v : String} (hv : v ∈ rvalue.uses) :
    v ∈ (Element.stmt (.assign place rvalue)).names := by
  simp [Element.names, Element.uses, Statement.uses, hv]

/-- The references on the way to a place can be told if its local is there. -/
theorem exists_derefs (h : ∃ found, body.var place.base = .ok found) :
    ∃ derefs, body.derefs place = .ok derefs := by
  obtain ⟨found, hfound⟩ := h
  exact ⟨_, by rw [derefs, hfound]; rfl⟩

/-- The lifetimes of the references on the way to a place are lifetimes of the body. -/
theorem mem_lifetimes_of_derefs {derefs : List (String × Bool)}
    (h : body.derefs place = .ok derefs) {deref : String × Bool} (hderef : deref ∈ derefs) :
    deref.1 ∈ body.lifetimes.map Lifetime.name := by
  obtain ⟨found, hfound, rfl⟩ := exists_of_map_eq_ok h
  obtain ⟨⟨step, depth⟩, -, hstep⟩ := List.mem_filterMap.1 hderef
  dsimp only at hstep
  split at hstep
  · next lifetime mutable referent hproject =>
    cases hstep
    exact (knows_of_var hfound).lifetimes _ ((Ty.of_project? hproject).1 _ List.mem_cons_self)
  · cases hstep

end

end Body

/-! ### What a body demands -/

/-- The demand is about lifetimes and a point of the body. -/
structure Demand.Fits (body : Body) (demand : Demand) : Prop where
  /-- The lifetime that lasts longer is one of the body. -/
  longer : demand.longer ∈ body.lifetimes.map Lifetime.name
  /-- The lifetime that it outlives is one of the body. -/
  shorter : demand.shorter ∈ body.lifetimes.map Lifetime.name
  /-- The point is one of the graph. -/
  point : ∃ i, body.graph.index? demand.point = some i

/-- A mismatch of types, which comes only from types of different shapes that the body relates. -/
def Body.Clash (body : Body) (fault : Fault) : Prop :=
  body.Mismatched ∧ ∃ sub sup, fault = .badType (.mismatch sub sup)

namespace Demand

variable {body : Body} {point : Point}

/-- A subtyping between types that the body relates demands what fits, or the types clash. -/
theorem ends_subtype {sub sup : Option Ty} {origin : Origin} {variance : Variance}
    (hrelates : ∀ s t, sub = some s → sup = some t → body.Relates s t)
    (hpoint : ∃ i, body.graph.index? point = some i) :
    Ends (fun demands => ∀ demand ∈ demands, demand.Fits body) body.Clash
      (subtype sub sup point origin variance) := by
  unfold subtype
  split
  · next s t =>
    have hrelated := hrelates s t rfl rfl
    obtain ⟨hs, ht⟩ := hrelated.knows
    have hnames : ∀ l ∈ s.lifetimeWalk ++ t.lifetimeWalk, l ∈ body.lifetimes.map Lifetime.name := by
      intro l hl
      exact (List.mem_append.1 hl).elim (hs.lifetimes l) (ht.lifetimes l)
    have hends : Ends
        (fun pairs => ∀ pair ∈ pairs, Ty.Among (s.lifetimeWalk ++ t.lifetimeWalk) pair) body.Clash
        ((Ty.relate variance s t).mapError Fault.badType) := by
      have hrelate := Ty.ends_relate variance s t
      cases hresult : Ty.relate variance s t with
      | ok pairs =>
        rw [hresult] at hrelate
        exact hrelate.2
      | error error =>
        rw [hresult] at hrelate
        obtain ⟨hne, sub, sup, rfl⟩ := hrelate
        exact ⟨⟨s, t, hrelated, hne⟩, sub, sup, rfl⟩
    refine hends.bind fun pairs hpairs demand hdemand => ?_
    obtain ⟨pair, hpair, rfl⟩ := List.mem_map.1 hdemand
    obtain ⟨hfirst, hsecond⟩ := hpairs pair hpair
    exact ⟨hnames _ hfirst, hnames _ hsecond, hpoint⟩
  · intro demand hdemand
    cases hdemand

/-- What is kept of the references on the way to a place is on the way. -/
theorem mem_of_throughShared {derefs : List (String × Bool)} {l : String}
    (h : l ∈ throughShared derefs) : ∃ deref ∈ derefs, deref.1 = l := by
  fun_induction throughShared derefs with
  | case1 => cases h
  | case2 lifetime derefs ih =>
    rcases List.mem_cons.1 h with rfl | h
    · exact ⟨_, List.mem_cons_self, rfl⟩
    · obtain ⟨deref, hderef, heq⟩ := ih h
      exact ⟨deref, List.mem_cons_of_mem _ hderef, heq⟩
  | case3 lifetime derefs =>
    obtain rfl := List.mem_singleton.1 h
    exact ⟨_, List.mem_cons_self, rfl⟩

/-- What a borrow demands of the references that it goes through fits. -/
theorem ends_reborrow {place : Place} {lifetime : String}
    (hvar : ∃ found, body.var place.base = .ok found)
    (hlifetime : lifetime ∈ body.lifetimes.map Lifetime.name)
    (hpoint : ∃ i, body.graph.index? point = some i) :
    Ends (fun demands => ∀ demand ∈ demands, demand.Fits body) body.Clash
      (reborrow body lifetime place point) := by
  obtain ⟨derefs, hderefs⟩ := Body.exists_derefs hvar
  rw [reborrow, hderefs]
  intro demand hdemand
  obtain ⟨longer, hlonger, rfl⟩ := List.mem_map.1 hdemand
  obtain ⟨deref, hderef, rfl⟩ := mem_of_throughShared hlonger
  exact ⟨Body.mem_lifetimes_of_derefs hderefs hderef, hlifetime, hpoint⟩

/-- What an assignment demands fits, or types clash. -/
theorem ends_assignment {place : Place} {rvalue : Rvalue} {next : Point}
    (hitem : (point, .stmt (.assign place rvalue)) ∈ body.graph.items)
    (hnext : ∃ i, body.graph.index? next = some i) :
    Ends (fun demands => ∀ demand ∈ demands, demand.Fits body) body.Clash
      (assignment body place rvalue next) := by
  have hvar : ∀ v ∈ rvalue.uses, ∃ found, body.var v = .ok found :=
    fun v hv => body.exists_var_of_item hitem (Body.mem_names_of_uses hv)
  obtain ⟨target, htarget⟩ := Body.exists_placeType
    (body.exists_var_of_item hitem (v := place.base) (by simp [Element.names]))
  obtain ⟨value, hvalue⟩ := Body.exists_rvalueType hvar
  have hstored : ∀ origin, Ends (fun demands => ∀ demand ∈ demands, demand.Fits body) body.Clash
      (subtype value target next origin) := by
    intro origin
    refine ends_subtype ?_ hnext
    rintro s t rfl rfl
    exact .stored hitem hvalue htarget
  unfold assignment
  refine .bind_of_eq_ok htarget ?_
  cases rvalue with
  | use operand => exact .bind_of_eq_ok hvalue (hstored _)
  | borrow lifetime mutable borrowed =>
    refine .bind_of_eq_ok hvalue ?_
    refine (hstored _).bind fun stored hfits => ?_
    have hreborrow := ends_reborrow (hvar borrowed.base List.mem_cons_self)
      (body.mem_lifetimes_of_element hitem List.mem_cons_self) hnext
    refine hreborrow.bind fun through hthrough demand hdemand => ?_
    exact (List.mem_append.1 hdemand).elim (hfits demand) (hthrough demand)
  | call func args params result =>
    obtain rfl : result = value := by simpa [Body.rvalueType] using hvalue
    have hargs : ∀ pair ∈ args.zip params, Ends
        (fun demands => ∀ demand ∈ demands, demand.Fits body) body.Clash
        (body.operandType pair.1 >>= fun ty =>
          subtype ty (some pair.2) next .callArgument) := by
      rintro ⟨arg, param⟩ hpair
      have huses : ∀ v ∈ arg.uses, v ∈ (Rvalue.call func args params result).uses := fun v hv =>
        List.mem_flatMap.2 ⟨arg, (List.of_mem_zip hpair).1, hv⟩
      obtain ⟨ty, hty⟩ := Body.exists_operandType fun v hv => hvar v (huses v hv)
      refine .bind_of_eq_ok hty (ends_subtype ?_ hnext)
      rintro s _ rfl hparam
      cases hparam
      exact .argument hitem hpair hty
    refine (Ends.mapM hargs).bind fun arguments harguments => ?_
    refine (hstored _).bind fun stored hfits demand hdemand => ?_
    rcases List.mem_append.1 hdemand with hargument | hold
    · obtain ⟨row, hrow, hmem⟩ := List.mem_flatten.1 hargument
      exact harguments row hrow demand hmem
    · exact hfits demand hold
  | const value => exact .bind_of_eq_ok hvalue (hstored _)

/-- What a body demands fits, or types clash. -/
theorem ends_ofBody (body : Body) :
    Ends (fun demands => ∀ demand ∈ demands, demand.Fits body) body.Clash (ofBody body) := by
  have helements : ∀ item ∈ body.graph.items,
      Ends (fun demands => ∀ demand ∈ demands, demand.Fits body) body.Clash
        (ofElement body item.1 item.2) := by
    rintro ⟨point, element⟩ hitem
    dsimp only
    unfold ofElement
    split
    · obtain ⟨i, hpoint, helement⟩ := Graph.mem_items.1 hitem
      exact ends_assignment hitem ⟨i + 1, Graph.index?_next hpoint helement⟩
    · intro demand hdemand
      cases hdemand
  have hobligations : ∀ obligation ∈ body.obligations,
      Ends (fun demands => ∀ demand ∈ demands, demand.Fits body) body.Clash
        (ofObligation obligation) := by
    intro obligation hmem
    have hpoint := Body.exists_index_of_obligation hmem
    cases obligation with
    | outlives longer shorter point =>
      have hmentioned : ∀ l ∈ [longer, shorter], l ∈ body.lifetimes.map Lifetime.name := by
        intro l hl
        apply Body.mem_lifetimes_of_mentioned
        rw [BodyParts.mentioned, List.mem_eraseDups]
        exact List.mem_append_right _ (List.mem_flatMap.2 ⟨_, hmem, hl⟩)
      intro demand hdemand
      obtain rfl := List.mem_singleton.1 hdemand
      exact ⟨hmentioned _ (by simp), hmentioned _ (by simp), hpoint⟩
    | subtype sub sup point variance =>
      rw [ofObligation]
      refine ends_subtype ?_ hpoint
      rintro s t hs ht
      cases hs
      cases ht
      exact .obligation hmem
  refine (Ends.mapM helements).bind fun elements hfits => ?_
  refine (Ends.mapM hobligations).bind fun outside hfits' demand hdemand => ?_
  rcases List.mem_append.1 hdemand with hmem | hmem
  · obtain ⟨row, hrow, hmem⟩ := List.mem_flatten.1 hmem
    exact hfits row hrow demand hmem
  · obtain ⟨row, hrow, hmem⟩ := List.mem_flatten.1 hmem
    exact hfits' row hrow demand hmem

/-- A subtyping that has been broken down is between types of one shape. -/
theorem shape_eq_of_subtype {s t : Ty} {origin : Origin} {variance : Variance}
    {demands : List Demand} (h : subtype (some s) (some t) point origin variance = .ok demands)
    (hs : s.WellFormed) (ht : t.WellFormed) : s.shape = t.shape := by
  obtain ⟨pairs, hpairs, -⟩ := exists_of_bind_eq_ok h
  have hrelate := Ty.ends_relate variance s t
  cases hresult : Ty.relate variance s t with
  | ok pairs =>
    rw [hresult] at hrelate
    exact hrelate.1 ⟨hs, ht⟩
  | error error =>
    rw [hresult] at hpairs
    cases hpairs

end Demand

/-- Where the demands of a body could be collected, the types that it relates have the same
shapes. -/
theorem Body.shape_eq_of_ofBody {body : Body} (hbody : body.WellFormed) {demands : List Demand}
    (h : Demand.ofBody body = .ok demands) {s t : Ty} (hrelated : body.Relates s t) :
    s.shape = t.shape := by
  obtain ⟨hs, ht⟩ := hrelated.knows
  obtain ⟨rows, hrows, h⟩ := exists_of_bind_eq_ok h
  obtain ⟨outside, houtside, -⟩ := exists_of_bind_eq_ok h
  cases hrelated with
  | stored hitem hvalue hplace =>
    obtain ⟨row, -, hrow⟩ := exists_of_mem_mapM hrows hitem
    obtain ⟨origin, stored, hstored, -⟩ := Demand.assignment_stored hrow hvalue hplace
    exact Demand.shape_eq_of_subtype hstored (hs.wellFormed hbody) (ht.wellFormed hbody)
  | argument hitem harg hvalue =>
    obtain ⟨row, -, hrow⟩ := exists_of_mem_mapM hrows hitem
    dsimp only [Demand.ofElement] at hrow
    obtain ⟨passed, hpassed, -⟩ := Demand.assignment_argument hrow harg hvalue
    exact Demand.shape_eq_of_subtype hpassed (hs.wellFormed hbody) (ht.wellFormed hbody)
  | obligation hmem =>
    obtain ⟨row, -, hrow⟩ := exists_of_mem_mapM houtside hmem
    exact Demand.shape_eq_of_subtype hrow (hs.wellFormed hbody) (ht.wellFormed hbody)

end RegionInference
