import Mathlib
import RegionInference.Proofs.Additions
import RegionInference.Proofs.PathLiveness

/-!
# Sets of constraints in use

A session works with several sets of constraints: it makes additions to them, freezes them and
copies them, and each request has an answer (`Session.serve`). The answers tell which additions a
set took (`Session.made`) and which of them it had use for (`Session.accepted`); a copy takes over
those of the set it was made from.

What one request leaves as it is stands first: the other sets (`Session.serve_other`) and a frozen
set (`Session.serve_frozen`). What it keeps is that every set records its additions
(`Session.Valid`), and so does a run. The last section reads off what that means for a set at any
time of any session.
-/

namespace RegionInference.ConstraintSet

/-- A request to a set. -/
inductive Call where
  /-- A constraint that a region contains a point. -/
  | addLive (lifetime : String) (point : Point) (origin : Origin)
  /-- A constraint between two regions. -/
  | addOutlives (longer shorter : String) (point : Point) (origin : Origin)
  /-- A constraint of either kind. -/
  | add (constraint : Constraint)
  /-- No more constraints are to be taken. -/
  | freeze
  /-- A copy that takes constraints. -/
  | copy

/-- The addition that a call asks for. -/
def Call.addition? : Call → Option Addition
  | .addLive lifetime point origin => some (.live lifetime point origin)
  | .addOutlives longer shorter point origin => some (.outlives longer shorter point origin)
  | .add c => some c.addition
  | .freeze => none
  | .copy => none

/-- What a request comes to. -/
inductive Answer where
  /-- The addition was taken, and had something to add or not. -/
  | added (new : Bool)
  /-- The request was refused. -/
  | raised (fault : Fault)
  /-- The set is frozen. -/
  | done
  /-- The copy stands at a place. -/
  | copied (place : Nat)

/-- A request to the set at a place, with its answer. -/
structure Event where
  /-- The place of the set. -/
  place : Nat
  /-- The request. -/
  call : Call
  /-- The answer. -/
  answer : Answer

/-- The sets in use and what has happened to them. -/
structure Session where
  /-- The sets. -/
  sets : List ConstraintSet
  /-- The requests with their answers, newest first. -/
  events : List Event := []

/-- The sets after an addition to the one at a place, with the answer. -/
def settle (sets : List ConstraintSet) (place : Nat) :
    Except Fault (ConstraintSet × Bool) → List ConstraintSet × Answer
  | .ok (next, new) => (sets.set place next, .added new)
  | .error fault => (sets, .raised fault)

/-- The sets with a copy of one of them at the end, with the answer. -/
def keep (sets : List ConstraintSet) : Except Fault ConstraintSet → List ConstraintSet × Answer
  | .ok copied => (sets ++ [copied], .copied sets.length)
  | .error fault => (sets, .raised fault)

/-- The sets after a request to the set at a place, with the answer. -/
def respond (sets : List ConstraintSet) (place : Nat) (set : ConstraintSet) :
    Call → List ConstraintSet × Answer
  | .addLive lifetime point origin => settle sets place (set.addLive lifetime point origin)
  | .addOutlives longer shorter point origin =>
    settle sets place (set.addOutlives longer shorter point origin)
  | .add c => settle sets place (set.add c)
  | .freeze => (sets.set place set.freeze, .done)
  | .copy => keep sets set.copy

/-- A call that asks for an addition makes it. -/
theorem respond_of_addition {sets : List ConstraintSet} {place : Nat} {set : ConstraintSet}
    {call : Call} {a : Addition} (h : call.addition? = some a) :
    respond sets place set call = settle sets place (set.receive a) := by
  cases call with
  | addLive lifetime point origin =>
    cases h
    rfl
  | addOutlives longer shorter point origin =>
    cases h
    rfl
  | add c =>
    cases h
    rw [← add_eq_receive]
    rfl
  | freeze => cases h
  | copy => cases h

/-- A call makes an addition, freezes or copies. -/
theorem Call.cases_addition (call : Call) :
    (∃ a, call.addition? = some a) ∨ call = .freeze ∨ call = .copy := by
  cases call with
  | freeze => exact .inr (.inl rfl)
  | copy => exact .inr (.inr rfl)
  | _ => exact .inl ⟨_, rfl⟩

namespace Session

/-- One empty set. -/
def start (graph : Graph) (lifetimes : List String) : Session :=
  { sets := [.new graph lifetimes] }

/-- Serves a request to the set at a place. -/
def serve (session : Session) (request : Nat × Call) : Session :=
  match session.sets[request.1]? with
  | none => session
  | some set =>
    let result := respond session.sets request.1 set request.2
    ⟨result.1, ⟨request.1, request.2, result.2⟩ :: session.events⟩

/-- Serves requests in turn. -/
def run (session : Session) (requests : List (Nat × Call)) : Session :=
  requests.foldl serve session

/-- The additions to the set at a place whose answers are of a kind, oldest first. A copy starts
with those of the set it was made from. -/
def collected (keep : Bool → Bool) : List Event → Nat → List Addition
  | [], _ => []
  | event :: earlier, k =>
    match event.answer with
    | .added new =>
      if event.place = k ∧ keep new = true then
        collected keep earlier k ++ event.call.addition?.toList
      else collected keep earlier k
    | .copied place => collected keep earlier (if place = k then event.place else k)
    | _ => collected keep earlier k

/-- The additions that the set at a place took. -/
def made (session : Session) (k : Nat) : List Addition :=
  collected (fun _ => true) session.events k

/-- The additions that the set at a place had use for. -/
def accepted (session : Session) (k : Nat) : List Addition :=
  collected (fun new => new) session.events k

/-! ### What a request leaves as it is -/

variable {session : Session} {k : Nat} {set : ConstraintSet}

/-- A request to a set that is there is answered by it, and noted. -/
theorem serve_of_some (hset : session.sets[k]? = some set) (call : Call) :
    session.serve (k, call) = ⟨(respond session.sets k set call).1,
      ⟨k, call, (respond session.sets k set call).2⟩ :: session.events⟩ := by
  simp only [serve, hset]

/-- Putting a set back in its place changes nothing. -/
theorem set_of_some {sets : List ConstraintSet} (hset : sets[k]? = some set) :
    sets.set k set = sets := by
  refine List.ext_getElem? fun i => ?_
  rw [List.getElem?_set]
  grind

/-- Where one set is replaced, a place has the new set or what it had. -/
theorem getElem?_set_cases {sets : List ConstraintSet} {place : Nat} {target next : ConstraintSet}
    (hplace : sets[place]? = some target) (hset : (sets.set place next)[k]? = some set) :
    (place = k ∧ next = set) ∨ (place ≠ k ∧ sets[k]? = some set) := by
  by_cases hother : place = k
  · subst hother
    obtain ⟨hlt, -⟩ := List.getElem?_eq_some_iff.1 hplace
    rw [List.getElem?_set_self hlt] at hset
    exact .inl ⟨rfl, Option.some.inj hset⟩
  · rw [List.getElem?_set_ne hother] at hset
    exact .inr ⟨hother, hset⟩

/-- The sets after a response: one of them replaced, or one more at the end. -/
theorem respond_cases (sets : List ConstraintSet) (place : Nat) (set : ConstraintSet)
    (call : Call) :
    (∃ next, (respond sets place set call).1 = sets.set place next) ∨
      (respond sets place set call).1 = sets ∨
      ∃ last, (respond sets place set call).1 = sets ++ [last] := by
  rcases call.cases_addition with ⟨a, ha⟩ | rfl | rfl
  · rw [respond_of_addition ha]
    cases set.receive a with
    | error fault => exact .inr (.inl rfl)
    | ok result => exact .inl ⟨result.1, rfl⟩
  · exact .inl ⟨_, rfl⟩
  · change _ ∨ (keep sets set.copy).1 = sets ∨ ∃ last, (keep sets set.copy).1 = sets ++ [last]
    cases set.copy with
    | error fault => exact .inr (.inl rfl)
    | ok copied => exact .inr (.inr ⟨copied, rfl⟩)

/-- One more set at the end leaves the others in their places. -/
theorem getElem?_concat_of_some {sets : List ConstraintSet} (hset : sets[k]? = some set)
    (last : ConstraintSet) : (sets ++ [last])[k]? = some set := by
  obtain ⟨hlt, -⟩ := List.getElem?_eq_some_iff.1 hset
  rwa [List.getElem?_append_left hlt]

/-- A request to another set leaves a set as it is. -/
theorem serve_other (hset : session.sets[k]? = some set) {request : Nat × Call}
    (hother : request.1 ≠ k) : (session.serve request).sets[k]? = some set := by
  obtain ⟨place, call⟩ := request
  cases hplace : session.sets[place]? with
  | none => simpa only [serve, hplace] using hset
  | some other =>
    rw [serve_of_some hplace]
    rcases respond_cases session.sets place other call with ⟨next, heq⟩ | heq | ⟨last, heq⟩
    · simpa only [heq, List.getElem?_set_ne hother] using hset
    · simpa only [heq] using hset
    · simpa only [heq] using getElem?_concat_of_some hset last

/-- Nothing changes a frozen set. -/
theorem serve_frozen (hset : session.sets[k]? = some set) (hfrozen : set.frozen = true)
    (request : Nat × Call) : (session.serve request).sets[k]? = some set := by
  by_cases hother : request.1 ≠ k
  · exact serve_other hset hother
  obtain ⟨place, call⟩ := request
  obtain rfl : place = k := not_not.1 hother
  rw [serve_of_some hset]
  rcases call.cases_addition with ⟨a, ha⟩ | rfl | rfl
  · rw [respond_of_addition ha, receive_of_frozen hfrozen]
    exact hset
  · have hsame : set.freeze = set := by
      rw [freeze, ← hfrozen]
    change (session.sets.set place set.freeze)[place]? = some set
    rwa [hsame, set_of_some hset]
  · change (keep session.sets set.copy).1[place]? = some set
    cases set.copy with
    | error fault => exact hset
    | ok copied => exact getElem?_concat_of_some hset copied

/-- Requests to other sets leave a set as it is. -/
theorem run_other (hset : session.sets[k]? = some set) {requests : List (Nat × Call)}
    (hother : ∀ request ∈ requests, request.1 ≠ k) :
    (session.run requests).sets[k]? = some set := by
  induction requests generalizing session with
  | nil => exact hset
  | cons request requests ih =>
    exact ih (serve_other hset (hother request List.mem_cons_self))
      fun later hlater => hother later (List.mem_cons_of_mem _ hlater)

/-- No requests change a frozen set. -/
theorem run_frozen (hset : session.sets[k]? = some set) (hfrozen : set.frozen = true)
    (requests : List (Nat × Call)) : (session.run requests).sets[k]? = some set := by
  induction requests generalizing session with
  | nil => exact hset
  | cons request requests ih => exact ih (serve_frozen hset hfrozen request)

/-! ### What a request keeps -/

/-- Every set records the additions that it took, and those it had use for are the first of each
key. -/
def Valid (graph : Graph) (lifetimes : List String) (session : Session) : Prop :=
  ∀ k set, session.sets[k]? = some set →
    Records graph lifetimes (session.made k) set ∧
      session.accepted k = Addition.firsts (session.made k)

variable {graph : Graph} {lifetimes : List String}

/-- A new session is valid. -/
theorem valid_start (graph : Graph) (lifetimes : List String) :
    Valid graph lifetimes (start graph lifetimes) := by
  intro k set hset
  obtain ⟨rfl, rfl⟩ : k = 0 ∧ ConstraintSet.new graph lifetimes = set := by
    simpa [start, List.getElem?_singleton] using hset
  exact ⟨.new graph lifetimes, rfl⟩

/-- An addition is collected, if its answer is of the kind. -/
theorem collected_added (keep : Bool → Bool) (k : Nat) {call : Call} {a : Addition}
    (h : call.addition? = some a) (new : Bool) (events : List Event) :
    collected keep (⟨k, call, .added new⟩ :: events) k =
      if keep new then collected keep events k ++ [a] else collected keep events k := by
  simp [collected, h]

/-- An addition to another set is not collected. -/
theorem collected_added_other (keep : Bool → Bool) {place k : Nat} (hother : place ≠ k)
    (call : Call) (new : Bool) (events : List Event) :
    collected keep (⟨place, call, .added new⟩ :: events) k = collected keep events k := by
  simp [collected, hother]

/-- A copy has collected what the set it was made from has. -/
theorem collected_copied (keep : Bool → Bool) (place k : Nat) (call : Call) (events : List Event)
    (copy : Nat) : collected keep (⟨place, call, .copied copy⟩ :: events) k =
      collected keep events (if copy = k then place else k) := rfl

/-- The step: an addition that a set takes. -/
theorem Valid.added (h : Valid graph lifetimes session) {place : Nat} {target next : ConstraintSet}
    (hplace : session.sets[place]? = some target) {call : Call} {a : Addition}
    (ha : call.addition? = some a) {new : Bool} (hadd : target.receive a = .ok (next, new)) :
    Valid graph lifetimes
      ⟨session.sets.set place next, ⟨place, call, .added new⟩ :: session.events⟩ := by
  intro k set hset
  rcases getElem?_set_cases hplace hset with ⟨rfl, rfl⟩ | ⟨hother, hset⟩
  · obtain ⟨hrecords, haccepted⟩ := h place target hplace
    obtain ⟨hnext, hfirsts⟩ := hrecords.receive hadd
    unfold accepted at haccepted ⊢
    unfold made at haccepted hnext hfirsts ⊢
    rw [collected_added _ _ ha, collected_added _ _ ha, if_pos rfl, haccepted]
    exact ⟨hnext, hfirsts.symm⟩
  · unfold accepted made
    rw [collected_added_other _ hother, collected_added_other _ hother]
    exact h k set hset

/-- The step: a set is frozen. -/
theorem Valid.freeze (h : Valid graph lifetimes session) {place : Nat} {target : ConstraintSet}
    (hplace : session.sets[place]? = some target) (call : Call) :
    Valid graph lifetimes
      ⟨session.sets.set place target.freeze, ⟨place, call, .done⟩ :: session.events⟩ := by
  intro k set hset
  rcases getElem?_set_cases hplace hset with ⟨rfl, rfl⟩ | ⟨-, hset⟩
  · obtain ⟨hrecords, haccepted⟩ := h place target hplace
    exact ⟨hrecords.freeze, haccepted⟩
  · exact h k set hset

/-- The step: a set is copied. -/
theorem Valid.copy (h : Valid graph lifetimes session) {place : Nat} {target : ConstraintSet}
    (hplace : session.sets[place]? = some target) (call : Call) :
    Valid graph lifetimes ⟨session.sets ++ [target.reopen],
      ⟨place, call, .copied session.sets.length⟩ :: session.events⟩ := by
  intro k set hset
  unfold accepted made
  -- the copy looks up what the set at `place` took, all other places what they took
  rw [collected_copied, collected_copied]
  by_cases hlast : session.sets.length = k
  · subst hlast
    obtain rfl : target.reopen = set := by simpa using hset
    rw [if_pos rfl]
    obtain ⟨hrecords, haccepted⟩ := h place target hplace
    exact ⟨hrecords.reopen, haccepted⟩
  · have hold : session.sets[k]? = some set := by grind
    rw [if_neg hlast]
    exact h k set hold

/-- Every request keeps a session valid. -/
theorem Valid.serve (h : Valid graph lifetimes session) (request : Nat × Call) :
    Valid graph lifetimes (session.serve request) := by
  obtain ⟨place, call⟩ := request
  cases hplace : session.sets[place]? with
  | none => simpa only [Session.serve, hplace] using h
  | some target =>
    rw [serve_of_some hplace]
    rcases call.cases_addition with ⟨a, ha⟩ | rfl | rfl
    · rw [respond_of_addition ha]
      cases hadd : target.receive a with
      | error fault => exact h
      | ok result => exact h.added hplace ha hadd
    · exact h.freeze hplace .freeze
    · rw [respond, (h place target hplace).1.copy_eq]
      exact h.copy hplace .copy

/-- The sets of every run record their additions. -/
theorem valid_run (graph : Graph) (lifetimes : List String) (requests : List (Nat × Call)) :
    Valid graph lifetimes ((start graph lifetimes).run requests) :=
  List.foldlRecOn requests serve (valid_start graph lifetimes) fun _ h request _ => h.serve request

/-! ### A set at any time -/

/-- What the constraints of a set are, given the additions that it took and those it had use for. -/
structure Contents (graph : Graph) (lifetimes : List String) (made accepted : List Addition)
    (set : ConstraintSet) : Prop where
  /-- The set is over the graph and the lifetimes, each of them once. -/
  ground : set.graph = graph ∧ set.lifetimes = lifetimes.eraseDups
  /-- A constraint on a point names a declared lifetime and a point of the graph. -/
  live_declared : ∀ c ∈ set.live, c.lifetime ∈ lifetimes ∧ graph.index? c.point = some c.index
  /-- A constraint between regions names declared lifetimes and a point of the graph. -/
  outlives_declared : ∀ c ∈ set.outlives,
    c.longer ∈ lifetimes ∧ c.shorter ∈ lifetimes ∧ graph.index? c.point = some c.index
  /-- No lifetime has to outlive itself. -/
  nontrivial : ∀ c ∈ set.outlives, c.longer ≠ c.shorter
  /-- Constraints on points have different keys. -/
  live_distinct : set.live.Pairwise fun a b => (a.lifetime, a.point) ≠ (b.lifetime, b.point)
  /-- Constraints between regions have different keys. -/
  outlives_distinct : set.outlives.Pairwise fun a b =>
    (a.longer, a.shorter, a.point) ≠ (b.longer, b.shorter, b.point)
  /-- The constraints on points are those that were accepted, in order and with their origins. -/
  live_eq : set.live.map LiveAt.addition = accepted.filter Addition.isLive
  /-- The constraints between regions are those that were accepted, in order and with their
  origins. -/
  outlives_eq : set.outlives.map Outlives.addition = accepted.filter fun a => !a.isLive
  /-- What was accepted is the first addition of each key. -/
  accepted_eq : accepted = Addition.firsts made

/-- How an addition to the set at a place is answered and what becomes of the sets. -/
structure Answers (sets next : List ConstraintSet) (k : Nat) (set : ConstraintSet) (a : Addition)
    (answer : Answer) : Prop where
  /-- It is new if the set permits it and has nothing with its key. -/
  new_iff : answer = .added true ↔
    set.Permits a ∧ a.isTrivial = false ∧ ∀ c ∈ set.toList, c.addition.key ≠ a.key
  /-- It is not new if the set permits it and it is trivial or there already. -/
  old_iff : answer = .added false ↔
    set.Permits a ∧ (a.isTrivial = true ∨ ∃ c ∈ set.toList, c.addition.key = a.key)
  /-- It is refused if the set does not permit it. -/
  refused_iff : (∃ fault, answer = .raised fault) ↔ ¬set.Permits a
  /-- A new one is appended. -/
  appended : answer = .added true → ∃ i, set.graph.index? a.point = some i ∧
    next = sets.set k (set.push (a.numbered i))
  /-- Otherwise all sets stay as they are. -/
  unchanged : answer ≠ .added true → next = sets

/-- The constraints that read the region of each lifetime are a partition, in order. -/
structure Grouped (set : ConstraintSet) : Prop where
  /-- There is one group for each lifetime. -/
  groups : set.byShorter.map Prod.fst = set.lifetimes ∧ set.lifetimes.Nodup
  /-- A group has the constraints with its lifetime, in their order. -/
  group_eq : ∀ group ∈ set.byShorter, group.2 = set.outlives.filter (·.shorter == group.1)
  /-- Every constraint is in one group. -/
  perm : (set.byShorter.flatMap Prod.snd).Perm set.outlives

/-- An addition has nothing to add if it is trivial or a constraint has its key. -/
theorem adds_nothing_iff {a : Addition} : (a.isTrivial || set.has a) = true ↔
    a.isTrivial = true ∨ ∃ c ∈ set.toList, c.addition.key = a.key := by
  rw [Bool.or_eq_true, has_iff]

/-- An addition has something to add if it is not trivial and no constraint has its key. -/
theorem adds_iff {a : Addition} : (a.isTrivial || set.has a) = false ↔
    a.isTrivial = false ∧ ∀ c ∈ set.toList, c.addition.key ≠ a.key := by
  rw [Bool.or_eq_false_iff, ← Bool.not_eq_true (set.has a), has_iff]
  simp

/-- What is done with an addition is what its answer says. -/
theorem answers_settle {sets : List ConstraintSet} (hset : sets[k]? = some set) (a : Addition) :
    Answers sets (settle sets k (set.receive a)).1 k set a (settle sets k (set.receive a)).2 := by
  rcases set.receive_cases a with
    ⟨hnot, fault, heq⟩ | ⟨hpermits, hold, heq⟩ | ⟨hpermits, hnew, i, hi, heq⟩
  · rw [heq]
    exact ⟨by simp [settle, hnot], by simp [settle, hnot], by simp [settle, hnot],
      by simp [settle], fun _ => rfl⟩
  · rw [heq]
    refine ⟨?_, ?_, by simp [settle, hpermits], by simp [settle], fun _ => set_of_some hset⟩
    · rw [← adds_iff, hold]
      simp [settle]
    · rw [← adds_nothing_iff, hold]
      simp [settle, hpermits]
  · rw [heq]
    refine ⟨?_, ?_, by simp [settle, hpermits], fun _ => ⟨i, hi, rfl⟩, fun hne => absurd rfl hne⟩
    · rw [← adds_iff, hnew]
      simp [settle, hpermits]
    · rw [← adds_nothing_iff, hnew]
      simp [settle]

/-- In a valid session, a set has the contents that its additions give it. -/
theorem contents_of_valid (h : Valid graph lifetimes session)
    (hset : session.sets[k]? = some set) :
    Contents graph lifetimes (session.made k) (session.accepted k) set := by
  obtain ⟨hrecords, haccepted⟩ := h k set hset
  have hdeclared : ∀ lifetime, lifetime ∈ set.lifetimes → lifetime ∈ lifetimes := by
    intro lifetime hmem
    rw [hrecords.lifetimes_eq] at hmem
    exact List.mem_eraseDups.1 hmem
  obtain ⟨hlive, houtlives, -⟩ := List.pairwise_append.1 hrecords.pairwise_key
  refine ⟨⟨hrecords.graph_eq, hrecords.lifetimes_eq⟩, fun c hc => ?_, fun c hc => ?_,
    fun c hc => hrecords.longer_ne_shorter hc, ?_, ?_, ?_, ?_, haccepted⟩
  · obtain ⟨hknown, hindex⟩ := hrecords.built.admits _ (mem_toList_live.2 hc)
    exact ⟨hdeclared _ hknown, hrecords.graph_eq ▸ hindex⟩
  · obtain ⟨hlonger, hshorter, hindex⟩ := hrecords.built.admits _ (mem_toList_outlives.2 hc)
    exact ⟨hdeclared _ hlonger, hdeclared _ hshorter, hrecords.graph_eq ▸ hindex⟩
  · refine (List.pairwise_map.1 hlive).imp fun {a b} hne heq => hne ?_
    obtain ⟨hlifetime, hpoint⟩ := Prod.mk.inj heq
    simp [Constraint.addition, LiveAt.addition, Addition.key, hlifetime, hpoint]
  · refine (List.pairwise_map.1 houtlives).imp fun {a b} hne heq => hne ?_
    obtain ⟨hlonger, hrest⟩ := Prod.mk.inj heq
    obtain ⟨hshorter, hpoint⟩ := Prod.mk.inj hrest
    simp [Constraint.addition, Outlives.addition, Addition.key, hlonger, hshorter, hpoint]
  · rw [hrecords.live_eq, haccepted]
  · rw [hrecords.outlives_eq, haccepted]

/-- In a valid session, the constraints of a set are grouped by the regions they read. -/
theorem grouped_of_valid (h : Valid graph lifetimes session) (hset : session.sets[k]? = some set) :
    Grouped set := by
  obtain ⟨hrecords, -⟩ := h k set hset
  refine ⟨⟨by simp [byShorter, Function.comp_def], hrecords.nodup_lifetimes⟩, ?_,
    hrecords.perm_byShorter⟩
  intro group hgroup
  obtain ⟨lifetime, -, rfl⟩ := List.mem_map.1 hgroup
  rfl

/-- At any time of any session, a set has the first addition of each key that it took, in order. An
addition is answered by whether it is new, and one that is not new or is refused changes nothing. A
frozen set stays as it is and refuses every addition. A copy is open, has the same constraints and
is a set of its own. The constraints by the lifetime that they read are a partition. -/
theorem sets_keep_first_additions (graph : Graph) (lifetimes : List String)
    (requests : List (Nat × Call)) {session : Session}
    (hsession : (start graph lifetimes).run requests = session)
    {k : Nat} {set : ConstraintSet} (hset : session.sets[k]? = some set) :
    Contents graph lifetimes (session.made k) (session.accepted k) set ∧
    (∀ call a, call.addition? = some a → ∃ next answer,
      session.serve (k, call) = ⟨next, ⟨k, call, answer⟩ :: session.events⟩ ∧
        Answers session.sets next k set a answer) ∧
    (session.serve (k, .freeze)).sets = session.sets.set k { set with frozen := true } ∧
    (set.frozen = true → ∀ later, (session.run later).sets[k]? = some set ∧
      ∀ call a, call.addition? = some a → (session.run later).serve (k, call) =
        ⟨(session.run later).sets, ⟨k, call, .raised .frozen⟩ :: (session.run later).events⟩) ∧
    (∃ copied, (session.serve (k, .copy)).sets = session.sets ++ [copied] ∧
      copied.frozen = false ∧ copied.live = set.live ∧ copied.outlives = set.outlives ∧
      (new set.graph set.lifetimes).addAll set.toList = .ok copied ∧
      ∀ later, ((∀ request ∈ later, request.1 ≠ k) →
          ((session.serve (k, .copy)).run later).sets[k]? = some set) ∧
        ((∀ request ∈ later, request.1 ≠ session.sets.length) →
          ((session.serve (k, .copy)).run later).sets[session.sets.length]? = some copied)) ∧
    Grouped set := by
  have hvalid : Valid graph lifetimes session := hsession ▸ valid_run graph lifetimes requests
  have hcopy : set.copy = .ok set.reopen := (hvalid k set hset).1.copy_eq
  have hcopies : (session.serve (k, .copy)).sets = session.sets ++ [set.reopen] := by
    rw [serve_of_some hset, respond, hcopy]
    rfl
  refine ⟨contents_of_valid hvalid hset, ?_, ?_, ?_, ⟨set.reopen, hcopies, rfl, rfl, rfl,
    hcopy, fun later => ⟨?_, ?_⟩⟩, grouped_of_valid hvalid hset⟩
  · intro call a ha
    refine ⟨_, _, serve_of_some hset call, ?_⟩
    rw [respond_of_addition ha]
    exact answers_settle hset a
  · rw [serve_of_some hset]
    rfl
  · intro hfrozen later
    have hlater := run_frozen hset hfrozen later
    refine ⟨hlater, fun call a ha => ?_⟩
    rw [serve_of_some hlater, respond_of_addition ha, receive_of_frozen hfrozen]
    rfl
  · intro hother
    have hkept : (session.serve (k, .copy)).sets[k]? = some set := by
      rw [hcopies]
      exact getElem?_concat_of_some hset _
    exact run_other hkept hother
  · intro hother
    have hlast : (session.serve (k, .copy)).sets[session.sets.length]? = some set.reopen := by
      rw [hcopies, List.getElem?_concat_length]
    exact run_other hlast hother

end Session

end RegionInference.ConstraintSet

namespace RegionInference

namespace Sample

/-- Additions to a set, some of them trivial, repeated or refused, before and after it is frozen,
and then to a copy. -/
def requests : List (Nat × ConstraintSet.Call) := [
  (0, .addOutlives "r" "s" ⟨"A", 1⟩ .assignment),
  (0, .addLive "r" ⟨"B", 0⟩ .liveness),
  (0, .addLive "r" ⟨"B", 0⟩ .obligation),
  (0, .addLive "t" ⟨"B", 0⟩ .liveness),
  (0, .addOutlives "s" "s" ⟨"A", 0⟩ .assignment),
  (0, .freeze),
  (0, .addLive "s" ⟨"C", 0⟩ .liveness),
  (0, .copy),
  (1, .addOutlives "r" "s" ⟨"Z", 0⟩ .callArgument),
  (1, .add (.live ⟨"s", ⟨"C", 0⟩, 99, .obligation⟩)),
  (1, .addOutlives "s" "r" ⟨"A", 1⟩ .callReturn),
  (1, .addOutlives "r" "s" ⟨"A", 1⟩ .reborrow)]

/-- The copy after the requests. -/
def copied : ConstraintSet :=
  .ofLists graph ["r", "s"]
    [⟨"r", ⟨"B", 0⟩, 2, .liveness⟩, ⟨"s", ⟨"C", 0⟩, 6, .obligation⟩]
    [⟨"r", "s", ⟨"A", 1⟩, 1, .assignment⟩, ⟨"s", "r", ⟨"A", 1⟩, 1, .callReturn⟩]

end Sample

/-- The copy of the sample has the two constraints of the frozen set and two more, and the frozen
set stays as it is. -/
theorem ConstraintSet.Session.copied_keeps_first_additions :
    ∃ session original, (start Sample.graph ["r", "s", "r"]).run Sample.requests = session ∧
      session.sets[1]? = some Sample.copied ∧ session.sets[0]? = some original ∧
      session.sets.map (fun set => (set.frozen, set.size)) = [(true, 2), (false, 4)] ∧
      Contents Sample.graph ["r", "s", "r"] (session.made 1) (session.accepted 1) Sample.copied ∧
      (session.made 1).length = 7 ∧ Grouped Sample.copied ∧
      ∀ later, (session.run later).sets[0]? = some original := by
  have hcopied : ((start Sample.graph ["r", "s", "r"]).run Sample.requests).sets[1]? =
      some Sample.copied :=
    (rfl : _ = some _).trans (congrArg some (ConstraintSet.ext rfl rfl rfl rfl rfl))
  obtain ⟨hcontents, -, -, -, -, hgrouped⟩ :=
    sets_keep_first_additions Sample.graph ["r", "s", "r"] Sample.requests rfl hcopied
  obtain ⟨-, -, -, hfrozen, -, -⟩ :=
    sets_keep_first_additions Sample.graph ["r", "s", "r"] Sample.requests rfl (k := 0) rfl
  exact ⟨_, _, rfl, hcopied, rfl, by decide, hcontents, by decide, hgrouped,
    fun later => (hfrozen rfl later).1⟩

end RegionInference
