import Mathlib
import RegionInference.Proofs.ConstraintSet
import RegionInference.Proofs.FirstOccurrences

/-!
# Additions to a set of constraints

What is asked for when a constraint is to be added is an addition: a constraint whose point has no
number yet (`ConstraintSet.Addition`). One lemma says all that a set can make of it
(`ConstraintSet.receive_eq`): the set refuses it, or has it already or finds it trivial and stays as
it is, or appends it with the number of its point.

Over many additions a set has the first addition of each key that is not trivial, in the order in
which they were made (`ConstraintSet.Records`). So its constraints have different keys, adding them
one by one to an empty set gives the same set again, open (`ConstraintSet.Records.copy_eq`), and by
the lifetime that they read they are a partition (`ConstraintSet.Records.perm_byShorter`). Every
built set is such a set (`ConstraintSet.Built.exists_records`), so a copy of any built set is the
set reopened (`ConstraintSet.Built.copy_eq`).
-/

namespace RegionInference

/-! ### Items by their keys -/

/-- The items by the value of a key, key after key, are the items whose key is listed. -/
theorem perm_flatMap_filter {α : Type} {key : α → String} {items : List α} {keys : List String}
    (h : keys.Nodup) :
    (keys.flatMap fun k => items.filter (key · == k)).Perm (items.filter (key · ∈ keys)) := by
  induction keys with
  | nil => simp
  | cons k keys ih =>
    obtain ⟨hnew, hrest⟩ := List.nodup_cons.1 h
    -- the items with the first key, and the others among them
    have hfirst : (items.filter (key · ∈ k :: keys)).filter (key · == k) =
        items.filter (key · == k) := by
      rw [List.filter_filter]
      refine List.filter_congr fun item _ => ?_
      by_cases hkey : key item = k <;> simp [hkey]
    have hlater : (items.filter (key · ∈ k :: keys)).filter (fun item => !(key item == k)) =
        items.filter (key · ∈ keys) := by
      rw [List.filter_filter]
      refine List.filter_congr fun item _ => ?_
      by_cases hkey : key item = k
      · simp [hkey, hnew]
      · simp [hkey]
    have hsplit := List.filter_append_perm (fun item => key item == k)
      (items.filter (key · ∈ k :: keys))
    rw [hfirst, hlater] at hsplit
    rw [List.flatMap_cons]
    exact ((ih hrest).append_left _).trans hsplit

/-! ### What is asked for -/

/-- What is asked for when a constraint is to be added. -/
inductive ConstraintSet.Addition where
  /-- The region of a lifetime contains a point. -/
  | live (lifetime : String) (point : Point) (origin : Origin)
  /-- From a point on, a lifetime outlives another. -/
  | outlives (longer shorter : String) (point : Point) (origin : Origin)
deriving DecidableEq

namespace ConstraintSet.Addition

/-- The lifetimes that are named. -/
def lifetimes : Addition → List String
  | .live lifetime _ _ => [lifetime]
  | .outlives longer shorter _ _ => [longer, shorter]

/-- The point. -/
def point : Addition → Point
  | .live _ point _ => point
  | .outlives _ _ point _ => point

/-- What two additions share if the later one has nothing to add. -/
def key : Addition → Constraint.Key
  | .live lifetime point _ => .live lifetime point
  | .outlives longer shorter point _ => .outlives longer shorter point

/-- Whether two additions have the same key. -/
def repeats (a b : Addition) : Bool :=
  decide (a.key = b.key)

/-- Whether the addition is on a point. -/
def isLive : Addition → Bool
  | .live .. => true
  | .outlives .. => false

/-- Whether a lifetime is to outlive itself. -/
def isTrivial : Addition → Bool
  | .live .. => false
  | .outlives longer shorter _ _ => longer == shorter

/-- The constraint that is asked for, once the number of the point is known. -/
def numbered (index : Nat) : Addition → Constraint
  | .live lifetime point origin => .live ⟨lifetime, point, index, origin⟩
  | .outlives longer shorter point origin => .outlives ⟨longer, shorter, point, index, origin⟩

/-- The additions whose constraints a set has once these were made: the first of each key, without
the trivial ones. -/
def firsts (additions : List Addition) : List Addition :=
  (additions.filter fun a => !a.isTrivial).eraseDupsBy repeats

/-- One more addition counts unless it is trivial or one with its key counts already. -/
theorem firsts_concat (additions : List Addition) (a : Addition) :
    firsts (additions ++ [a]) =
      if a.isTrivial || (firsts additions).any a.repeats then firsts additions
      else firsts additions ++ [a] := by
  unfold firsts
  rw [List.filter_append]
  cases htrivial : a.isTrivial with
  | true => simp [htrivial]
  | false => simp [htrivial, eraseDupsBy_concat]

/-- No addition that counts is trivial. -/
theorem not_isTrivial_of_mem_firsts {additions : List Addition} {a : Addition}
    (h : a ∈ firsts additions) : a.isTrivial = false := by
  simpa using (List.mem_filter.1 (mem_of_mem_eraseDupsBy h)).2

/-- The additions that are left have different keys. -/
theorem pairwise_firsts (additions : List Addition) :
    (firsts additions).Pairwise fun a b => a.key ≠ b.key := by
  refine (pairwise_eraseDupsBy _).imp fun {a b} h => ?_
  intro heq
  simp [repeats, heq] at h

end ConstraintSet.Addition

/-- The addition that a constraint came from. -/
def LiveAt.addition (c : LiveAt) : ConstraintSet.Addition :=
  .live c.lifetime c.point c.origin

/-- The addition that a constraint came from. -/
def Outlives.addition (c : Outlives) : ConstraintSet.Addition :=
  .outlives c.longer c.shorter c.point c.origin

/-- The addition that a constraint came from. -/
def Constraint.addition : Constraint → ConstraintSet.Addition
  | .live c => c.addition
  | .outlives c => c.addition

namespace ConstraintSet

/-! ### What a set makes of an addition -/

/-- Makes an addition. -/
def receive (set : ConstraintSet) : Addition → Except Fault (ConstraintSet × Bool)
  | .live lifetime point origin => set.addLive lifetime point origin
  | .outlives longer shorter point origin => set.addOutlives longer shorter point origin

/-- Adding a constraint is making the addition that it came from. -/
theorem add_eq_receive (set : ConstraintSet) (c : Constraint) :
    set.add c = set.receive c.addition := by
  cases c <;> rfl

/-- Whether the set has seen the key of an addition. -/
def has (set : ConstraintSet) (a : Addition) : Bool :=
  set.seen.contains a.key

/-- The set with a constraint at the end of its list. -/
def push (set : ConstraintSet) : Constraint → ConstraintSet
  | .live c => set.appendLive [c]
  | .outlives c => set.appendOutlives [c]

/-- The key of an addition was seen iff a constraint has it. -/
theorem has_iff {set : ConstraintSet} {a : Addition} :
    set.has a = true ↔ ∃ c ∈ set.toList, c.addition.key = a.key := by
  rw [has, set.seen_iff, toList]
  simp only [List.mem_append, List.mem_map, or_and_right, exists_or, exists_exists_and_eq_and,
    Constraint.addition, LiveAt.addition, Outlives.addition, Addition.key, LiveAt.key, Outlives.key]

/-- All that a set makes of an addition: it refuses it, or stays as it is, or appends it. -/
theorem receive_eq (set : ConstraintSet) (a : Addition) :
    set.receive a = (set.check a.point a.lifetimes).map fun index =>
      if a.isTrivial || set.has a then (set, false) else (set.push (a.numbered index), true) := by
  cases a with
  | live lifetime point origin =>
    change set.addLive lifetime point origin = (set.check point [lifetime]).map _
    unfold addLive
    cases set.check point [lifetime] with
    | error fault => rfl
    | ok index =>
      change (if _ then _ else _) = Except.ok (if _ then _ else _)
      simp only [Addition.isTrivial, Bool.false_or, has, Addition.key]
      split <;> rfl
  | outlives longer shorter point origin =>
    change set.addOutlives longer shorter point origin = (set.check point [longer, shorter]).map _
    unfold addOutlives
    cases set.check point [longer, shorter] with
    | error fault => rfl
    | ok index =>
      change (if _ then _ else if _ then _ else _) = Except.ok (if _ then _ else _)
      simp only [Addition.isTrivial, Bool.or_eq_true, has, Addition.key]
      by_cases hsame : (longer == shorter) = true
      · rw [if_pos hsame, if_pos (.inl hsame)]
        rfl
      · rw [if_neg hsame]
        simp only [hsame, Bool.false_eq_true, false_or]
        split <;> rfl

/-- An addition may be made: the set is open, has its lifetimes and its graph has its point. -/
def Permits (set : ConstraintSet) (a : Addition) : Prop :=
  set.frozen = false ∧ (∀ lifetime ∈ a.lifetimes, lifetime ∈ set.lifetimes) ∧
    ∃ i, set.graph.index? a.point = some i

/-- The set refuses an addition, has nothing to add, or has one more constraint, and which of the
three it is depends on the addition and the keys of the set alone. -/
theorem receive_cases (set : ConstraintSet) (a : Addition) :
    (¬set.Permits a ∧ ∃ fault, set.receive a = .error fault) ∨
    (set.Permits a ∧ (a.isTrivial || set.has a) = true ∧ set.receive a = .ok (set, false)) ∨
    (set.Permits a ∧ (a.isTrivial || set.has a) = false ∧ ∃ i, set.graph.index? a.point = some i ∧
      set.receive a = .ok (set.push (a.numbered i), true)) := by
  rw [receive_eq]
  cases hcheck : set.check a.point a.lifetimes with
  | error fault =>
    refine .inl ⟨?_, fault, rfl⟩
    rintro ⟨hopen, hknown, i, hi⟩
    rw [check_eq_ok.2 ⟨hopen, hknown, hi⟩] at hcheck
    cases hcheck
  | ok i =>
    obtain ⟨hopen, hknown, hi⟩ := check_eq_ok.1 hcheck
    have hpermits : set.Permits a := ⟨hopen, hknown, i, hi⟩
    cases hold : a.isTrivial || set.has a with
    | true => exact .inr (.inl ⟨hpermits, rfl, rfl⟩)
    | false => exact .inr (.inr ⟨hpermits, rfl, i, hi, rfl⟩)

/-- A frozen set refuses every addition as such, before it looks at it. -/
theorem receive_of_frozen {set : ConstraintSet} (h : set.frozen = true) (a : Addition) :
    set.receive a = .error .frozen := by
  rw [receive_eq, check, if_pos h]
  rfl

/-- An addition to a built set gives a built set. -/
theorem Built.receive {set next : ConstraintSet} {a : Addition} {added : Bool} (h : set.Built)
    (hadd : set.receive a = .ok (next, added)) : next.Built := by
  cases a with
  | live lifetime point origin => exact h.addLive hadd
  | outlives longer shorter point origin => exact h.addOutlives hadd

/-! ### The constraints after many additions -/

/-- A set over a graph and some lifetimes has the constraints of the additions that were made. -/
structure Records (graph : Graph) (lifetimes : List String) (made : List Addition)
    (set : ConstraintSet) : Prop where
  built : set.Built
  graph_eq : set.graph = graph
  lifetimes_eq : set.lifetimes = lifetimes.eraseDups
  /-- The constraints on points are those that count, in order. -/
  live_eq : set.live.map LiveAt.addition = (Addition.firsts made).filter Addition.isLive
  /-- The constraints between regions are those that count, in order. -/
  outlives_eq : set.outlives.map Outlives.addition =
    (Addition.firsts made).filter fun a => !a.isLive

/-- The additions that the constraints of a set came from, in the order of its lists. -/
theorem map_addition_toList (set : ConstraintSet) : set.toList.map Constraint.addition =
    set.live.map LiveAt.addition ++ set.outlives.map Outlives.addition := by
  simp [toList, Function.comp_def, Constraint.addition]

namespace Records

variable {graph : Graph} {lifetimes : List String} {made : List Addition} {set : ConstraintSet}

/-- The empty set records no additions. -/
theorem new (graph : Graph) (lifetimes : List String) :
    Records graph lifetimes [] (.new graph lifetimes) :=
  ⟨.new graph lifetimes, rfl, rfl, rfl, rfl⟩

/-- A set that takes no more constraints records what it recorded. -/
theorem freeze (h : Records graph lifetimes made set) : Records graph lifetimes made set.freeze :=
  ⟨h.built.freeze, h.graph_eq, h.lifetimes_eq, h.live_eq, h.outlives_eq⟩

/-- Up to order, the set has what the additions come to. -/
theorem perm_toList (h : Records graph lifetimes made set) :
    (set.toList.map Constraint.addition).Perm (Addition.firsts made) := by
  rw [map_addition_toList, h.live_eq, h.outlives_eq]
  exact List.filter_append_perm _ _

/-- The key of an addition was seen iff an addition that counts has it. -/
theorem has_eq (h : Records graph lifetimes made set) (a : Addition) :
    set.has a = (Addition.firsts made).any a.repeats := by
  rw [← h.perm_toList.any_eq, List.any_map, Bool.eq_iff_iff, has_iff, List.any_eq_true]
  simp [Addition.repeats, @eq_comm _ a.key]

/-- The step: one more addition that the set does not refuse. -/
theorem receive {a : Addition} {next : ConstraintSet} {added : Bool}
    (h : Records graph lifetimes made set) (hadd : set.receive a = .ok (next, added)) :
    Records graph lifetimes (made ++ [a]) next ∧
      Addition.firsts (made ++ [a]) =
        if added then Addition.firsts made ++ [a] else Addition.firsts made := by
  have hbuilt := h.built.receive hadd
  have hfirsts := Addition.firsts_concat made a
  rw [← h.has_eq] at hfirsts
  rcases set.receive_cases a with ⟨-, fault, herror⟩ | ⟨-, hold, hok⟩ | ⟨-, hnew, i, -, hok⟩
  · rw [herror] at hadd
    cases hadd
  · rw [hok] at hadd
    cases hadd
    rw [if_pos hold] at hfirsts
    exact ⟨⟨hbuilt, h.graph_eq, h.lifetimes_eq, by rw [hfirsts, h.live_eq],
      by rw [hfirsts, h.outlives_eq]⟩, hfirsts⟩
  · rw [hok] at hadd
    cases hadd
    rw [if_neg (by simp [hnew])] at hfirsts
    refine ⟨?_, hfirsts⟩
    -- one of the two lists has the addition at its end, the other one stays
    cases a with
    | live lifetime point origin =>
      refine ⟨hbuilt, h.graph_eq, h.lifetimes_eq, ?_, ?_⟩
      · simp [hfirsts, Addition.numbered, push, appendLive, h.live_eq, Addition.isLive,
          LiveAt.addition, List.filter_cons]
      · simp [hfirsts, Addition.numbered, push, appendLive, h.outlives_eq, Addition.isLive]
    | outlives longer shorter point origin =>
      refine ⟨hbuilt, h.graph_eq, h.lifetimes_eq, ?_, ?_⟩
      · simp [hfirsts, Addition.numbered, push, appendOutlives, h.live_eq, Addition.isLive]
      · simp [hfirsts, Addition.numbered, push, appendOutlives, h.outlives_eq, Addition.isLive,
          Outlives.addition]

/-- No constraint is trivial. -/
theorem longer_ne_shorter (h : Records graph lifetimes made set) {c : Outlives}
    (hc : c ∈ set.outlives) : c.longer ≠ c.shorter := by
  have hmem : c.addition ∈ Addition.firsts made := by
    have hmap : c.addition ∈ set.outlives.map Outlives.addition := List.mem_map_of_mem hc
    rw [h.outlives_eq] at hmap
    exact (List.mem_filter.1 hmap).1
  simpa [Outlives.addition, Addition.isTrivial] using Addition.not_isTrivial_of_mem_firsts hmem

/-- The constraints have different keys. -/
theorem pairwise_key (h : Records graph lifetimes made set) :
    set.toList.Pairwise fun a b => a.addition.key ≠ b.addition.key := by
  have hmap : (set.toList.map Constraint.addition).Pairwise fun a b => a.key ≠ b.key :=
    (h.perm_toList.pairwise_iff fun hne => Ne.symm hne).2 (Addition.pairwise_firsts made)
  rwa [List.pairwise_map] at hmap

end Records

/-! ### Adding the constraints of a set again -/

/-- The set, taking constraints again. -/
def reopen (set : ConstraintSet) : ConstraintSet :=
  { set with frozen := false }

/-- A set with one more constraint has seen one more key. -/
theorem push_has (set : ConstraintSet) (c : Constraint) (a : Addition) :
    (set.push c).has a = (set.has a || a.repeats c.addition) := by
  cases c with
  | live c => exact Bool.or_comm _ _
  | outlives c => exact Bool.or_comm _ _

/-- A set with one more constraint admits what it admitted. -/
theorem push_admits (set : ConstraintSet) (c other : Constraint) :
    (set.push c).Admits other ↔ set.Admits other := by
  cases c <;> cases other <;> rfl

/-- The addition of a constraint that an open set admits asks for that constraint. -/
theorem exists_check_of_admits {set : ConstraintSet} {c : Constraint} (hopen : set.frozen = false)
    (hadmits : set.Admits c) : ∃ i, set.check c.addition.point c.addition.lifetimes = .ok i ∧
      c.addition.numbered i = c := by
  cases c with
  | live c =>
    have hknown : ∀ lifetime ∈ [c.lifetime], lifetime ∈ set.lifetimes := by simpa using hadmits.1
    exact ⟨c.index, check_eq_ok.2 ⟨hopen, hknown, hadmits.2⟩, rfl⟩
  | outlives c =>
    have hknown : ∀ lifetime ∈ [c.longer, c.shorter], lifetime ∈ set.lifetimes := by
      simpa using ⟨hadmits.1, hadmits.2.1⟩
    exact ⟨c.index, check_eq_ok.2 ⟨hopen, hknown, hadmits.2.2⟩, rfl⟩

/-- An open set takes a constraint that it admits and does not have. -/
theorem add_of_admits {set : ConstraintSet} {c : Constraint} (hopen : set.frozen = false)
    (hadmits : set.Admits c) (hnew : (c.addition.isTrivial || set.has c.addition) = false) :
    set.add c = .ok (set.push c, true) := by
  obtain ⟨i, hcheck, hnumbered⟩ := exists_check_of_admits hopen hadmits
  rw [add_eq_receive, receive_eq, hcheck, hnew]
  simp [Except.map, hnumbered]

/-- Constraints with different keys are all appended. -/
theorem addAll_eq_foldl {set : ConstraintSet} {constraints : List Constraint}
    (hopen : set.frozen = false) (hadmits : ∀ c ∈ constraints, set.Admits c)
    (hnew : ∀ c ∈ constraints, (c.addition.isTrivial || set.has c.addition) = false)
    (hdiff : constraints.Pairwise fun a b => a.addition.key ≠ b.addition.key) :
    set.addAll constraints = .ok (constraints.foldl push set) := by
  induction constraints generalizing set with
  | nil => rfl
  | cons c constraints ih =>
    obtain ⟨hfirst, hrest⟩ := List.pairwise_cons.1 hdiff
    have hadd := add_of_admits hopen (hadmits c (by simp)) (hnew c (by simp))
    have hopen' : (set.push c).frozen = false := by
      cases c <;> exact hopen
    have hlater := ih hopen'
      (fun c' hc' => (push_admits set c c').2 (hadmits c' (List.mem_cons_of_mem _ hc')))
      (fun c' hc' => ?_) hrest
    · rw [addAll, List.foldlM_cons, hadd]
      exact hlater
    · have hne : c'.addition.repeats c.addition = false := by
        simpa [Addition.repeats] using (hfirst c' hc').symm
      rw [push_has, hne, Bool.or_false]
      exact hnew c' (List.mem_cons_of_mem _ hc')

/-- Constraints that are appended one by one stand at the ends of the lists. -/
theorem foldl_push (set : ConstraintSet) (live : List LiveAt) (outlives : List Outlives) :
    (live.map Constraint.live ++ outlives.map Constraint.outlives).foldl push set =
      (set.appendLive live).appendOutlives outlives := by
  have hlive : ∀ set : ConstraintSet, (live.map Constraint.live).foldl push set =
      set.appendLive live := by
    induction live with
    | nil => exact fun set => (appendLive_nil set).symm
    | cons c live ih =>
      intro set
      rw [List.map_cons, List.foldl_cons, ih, push, appendLive_append, List.singleton_append]
  have houtlives : ∀ set : ConstraintSet, (outlives.map Constraint.outlives).foldl push set =
      set.appendOutlives outlives := by
    induction outlives with
    | nil => exact fun set => (appendOutlives_nil set).symm
    | cons c outlives ih =>
      intro set
      rw [List.map_cons, List.foldl_cons, ih, push, appendOutlives_append, List.singleton_append]
  rw [List.foldl_append, hlive, houtlives]

namespace Records

variable {graph : Graph} {lifetimes : List String} {made : List Addition} {set : ConstraintSet}

/-- Each lifetime is declared once. -/
theorem nodup_lifetimes (h : Records graph lifetimes made set) : set.lifetimes.Nodup :=
  h.lifetimes_eq ▸ nodup_eraseDups lifetimes

/-- Adding its constraints one by one to an empty set gives the set, open. -/
theorem copy_eq (h : Records graph lifetimes made set) : set.copy = .ok set.reopen := by
  have hlifetimes : (ConstraintSet.new set.graph set.lifetimes).lifetimes = set.lifetimes :=
    eraseDups_of_nodup h.nodup_lifetimes
  have hadmits : ∀ c ∈ set.toList, (ConstraintSet.new set.graph set.lifetimes).Admits c := by
    intro c hc
    have hset := h.built.admits c hc
    cases c with
    | live c =>
      unfold Admits at hset ⊢
      rwa [hlifetimes]
    | outlives c =>
      unfold Admits at hset ⊢
      rwa [hlifetimes]
  have hnew : ∀ c ∈ set.toList, (c.addition.isTrivial ||
      (ConstraintSet.new set.graph set.lifetimes).has c.addition) = false := by
    intro c hc
    have hmem : c.addition ∈ Addition.firsts made :=
      h.perm_toList.mem_iff.1 (List.mem_map_of_mem hc)
    rw [Addition.not_isTrivial_of_mem_firsts hmem]
    rfl
  rw [copy, addAll_eq_foldl rfl hadmits hnew h.pairwise_key, toList, foldl_push]
  exact congrArg Except.ok (ConstraintSet.ext rfl hlifetimes rfl rfl rfl)

/-- A set that takes constraints again records what it recorded. -/
theorem reopen (h : Records graph lifetimes made set) : Records graph lifetimes made set.reopen :=
  ⟨(Built.new _ _).addAll h.copy_eq, h.graph_eq, h.lifetimes_eq, h.live_eq, h.outlives_eq⟩

/-- Every constraint between regions is in the group of its shorter lifetime, once. -/
theorem perm_byShorter (h : Records graph lifetimes made set) :
    (set.byShorter.flatMap Prod.snd).Perm set.outlives := by
  have hall : (set.outlives.filter fun c => c.shorter ∈ set.lifetimes) = set.outlives :=
    List.filter_eq_self.2 fun c hc => by
      simpa using (h.built.admits _ (mem_toList_outlives.2 hc)).2.1
  have hperm : (set.lifetimes.flatMap set.readers).Perm
      (set.outlives.filter fun c => c.shorter ∈ set.lifetimes) :=
    perm_flatMap_filter h.nodup_lifetimes
  rw [hall] at hperm
  rwa [byShorter, List.flatMap_map]

end Records

/-- A built set records the additions that it was built by. -/
theorem Built.exists_records {set : ConstraintSet} (h : set.Built) :
    ∃ graph lifetimes made, Records graph lifetimes made set := by
  induction h with
  | new graph lifetimes => exact ⟨graph, lifetimes, [], .new graph lifetimes⟩
  | @addLive set next lifetime point origin added _ hadd ih =>
    obtain ⟨graph, lifetimes, made, hrecords⟩ := ih
    have hreceive : set.receive (.live lifetime point origin) = .ok (next, added) := hadd
    exact ⟨graph, lifetimes, _, (hrecords.receive hreceive).1⟩
  | @addOutlives set next longer shorter point origin added _ hadd ih =>
    obtain ⟨graph, lifetimes, made, hrecords⟩ := ih
    have hreceive : set.receive (.outlives longer shorter point origin) = .ok (next, added) := hadd
    exact ⟨graph, lifetimes, _, (hrecords.receive hreceive).1⟩
  | freeze _ ih =>
    obtain ⟨graph, lifetimes, made, hrecords⟩ := ih
    exact ⟨graph, lifetimes, made, hrecords.freeze⟩

/-- A built set has each of its lifetimes once. -/
theorem Built.nodup_lifetimes {set : ConstraintSet} (h : set.Built) : set.lifetimes.Nodup := by
  obtain ⟨graph, lifetimes, made, hrecords⟩ := h.exists_records
  exact hrecords.nodup_lifetimes

/-- A copy of a built set is the set, taking constraints again. -/
theorem Built.copy_eq {set : ConstraintSet} (h : set.Built) : set.copy = .ok set.reopen := by
  obtain ⟨graph, lifetimes, made, hrecords⟩ := h.exists_records
  exact hrecords.copy_eq

/-- A built set that takes constraints again is built. -/
theorem Built.reopen {set : ConstraintSet} (h : set.Built) : set.reopen.Built :=
  (Built.new _ _).addAll h.copy_eq

end ConstraintSet

end RegionInference
