import RegionInference.Constraint.Generate
import RegionInference.Proofs.ConstraintSet
import RegionInference.Proofs.PathLiveness

/-!
# The constraints of a body

What the set of constraints of a body holds. It is a built set over the graph and the lifetimes of
the body (`ConstraintSet.ofBody_built`). Every lifetime of the type of a local that may still be
read has a constraint at the point (`ConstraintSet.exists_live_of_read`). Whatever an element or an
obligation demands is trivial or stands in the set (`ConstraintSet.has_of_mem`).
-/

namespace RegionInference

namespace Body

/-! ### The lifetimes of a body -/

/-- What a body mentions is one of its lifetimes. -/
theorem mem_lifetimes_of_mentioned {body : Body} {l : String} (h : l ∈ body.mentioned) :
    l ∈ body.lifetimes.map Lifetime.name := by
  unfold BodyParts.lifetimes
  rw [List.map_append, List.mem_append]
  by_cases hplaceholder : l ∈ body.placeholders.map Lifetime.name
  · exact .inl hplaceholder
  · refine .inr (List.mem_map.2 ⟨{ name := l }, List.mem_map.2 ⟨l, ?_, rfl⟩, rfl⟩)
    exact List.mem_filter.2 ⟨h, by simpa using hplaceholder⟩

/-- The local that is found has the name that was asked for. -/
theorem var_eq_ok {body : Body} {name : String} {found : Variable}
    (h : body.var name = .ok found) : found ∈ body.vars ∧ found.name = name := by
  unfold var at h
  split at h
  · next hfind =>
    cases h
    exact ⟨List.mem_of_find?_eq_some hfind, by simpa using List.find?_some hfind⟩
  · cases h

/-- The lifetimes of the type of a local are lifetimes of the body. -/
theorem mem_lifetimes_of_var {body : Body} {name l : String} {found : Variable}
    (h : body.var name = .ok found) (hl : l ∈ found.ty.lifetimes) :
    l ∈ body.lifetimes.map Lifetime.name := by
  apply mem_lifetimes_of_mentioned
  unfold BodyParts.mentioned
  rw [List.mem_eraseDups]
  refine List.mem_append_left _ (List.mem_append_left _ ?_)
  exact List.mem_flatMap.2 ⟨found, (var_eq_ok h).1, hl⟩

/-- A body has none of the faults that parts can have. -/
theorem faultless (body : Body) : body.variableFault? = none ∧
    BodyParts.placeholderFault? body.graph [] body.placeholders = none ∧
    body.elementFault? = none ∧ body.obligationFault? = none ∧ body.factsFault? = none := by
  have hnone := body.valid
  simp only [BodyParts.fault?, Option.orElse_eq_orElse, Option.orElse_eq_or,
    Option.or_eq_none_iff] at hnone
  exact hnone

/-- An obligation is about a point of the graph. -/
theorem exists_index_of_obligation {body : Body} {obligation : Obligation}
    (h : obligation ∈ body.obligations) :
    ∃ i, body.graph.index? obligation.point = some i := by
  obtain ⟨-, -, -, hvalid, -⟩ := body.faultless
  have hknown := List.find?_eq_none.1 (Option.map_eq_none_iff.1 hvalid) obligation h
  exact Option.ne_none_iff_exists'.1 (by simpa [Graph.contains] using hknown)

end Body

namespace Liveness

/-! ### The lifetimes that are live -/

/-- A lifetime is live at a point iff it is one of a local that may still be read, or one of a local
that may still be dropped that the destructor may touch. -/
theorem mem_lifetimesAt {liveness : Liveness} {i : Nat} {names : NameSet}
    (h : liveness.lifetimesAt i = .ok names) {l : String} :
    l ∈ names ↔
      (∃ v ∈ (liveness.factAt i).1, ∃ found, liveness.body.var v = .ok found ∧
        l ∈ found.ty.lifetimes) ∨
      ∃ v ∈ (liveness.factAt i).2, ∃ lifetimes, liveness.body.nonDangling v = .ok lifetimes ∧
        l ∈ lifetimes := by
  unfold lifetimesAt at h
  obtain ⟨read, hread, h⟩ := exists_of_bind_eq_ok h
  obtain ⟨dropped, hdropped, h⟩ := exists_of_bind_eq_ok h
  cases h
  rw [NameSet.mem_ofList, List.mem_append, List.mem_flatten, List.mem_flatten]
  refine or_congr ⟨?_, ?_⟩ ⟨?_, ?_⟩
  · rintro ⟨lifetimes, hmem, hl⟩
    obtain ⟨v, hv, htype⟩ := exists_of_mem_results hread hmem
    obtain ⟨found, hfound, rfl⟩ := exists_of_map_eq_ok htype
    exact ⟨v, hv, found, hfound, hl⟩
  · rintro ⟨v, hv, found, hfound, hl⟩
    obtain ⟨lifetimes, hmem, htype⟩ := exists_of_mem_mapM hread hv
    rw [typeLifetimes, hfound] at htype
    cases htype
    exact ⟨_, hmem, hl⟩
  · rintro ⟨lifetimes, hmem, hl⟩
    obtain ⟨v, hv, hneeded⟩ := exists_of_mem_results hdropped hmem
    exact ⟨v, hv, lifetimes, hneeded, hl⟩
  · rintro ⟨v, hv, lifetimes, hneeded, hl⟩
    obtain ⟨lifetimes', hmem, hneeded'⟩ := exists_of_mem_mapM hdropped hv
    rw [hneeded] at hneeded'
    cases hneeded'
    exact ⟨lifetimes, hmem, hl⟩

/-- What is live is a lifetime of the body. -/
theorem mem_lifetimes_of_lifetimesAt {liveness : Liveness} {i : Nat} {names : NameSet}
    (h : liveness.lifetimesAt i = .ok names) {l : String} (hl : l ∈ names) :
    l ∈ liveness.body.lifetimes.map Lifetime.name := by
  rcases (mem_lifetimesAt h).1 hl with
    ⟨v, -, found, hfound, hmem⟩ | ⟨v, -, lifetimes, hneeded, hmem⟩
  · exact Body.mem_lifetimes_of_var hfound hmem
  · obtain ⟨found, hfound, rfl⟩ := exists_of_map_eq_ok hneeded
    exact Body.mem_lifetimes_of_var hfound (List.mem_filter.1 hmem).1

end Liveness

namespace ConstraintSet

/-! ### Constraints on points -/

/-- The constraints on points are those of the live lifetimes of each point. -/
theorem mem_liveOf {body : Body} {liveness : Liveness} {live : List LiveAt}
    (h : liveOf body liveness = .ok live) {c : LiveAt} :
    c ∈ live ↔ body.graph.index? c.point = some c.index ∧ c.origin = .liveness ∧
      ∃ names, liveness.lifetimesAt c.index = .ok names ∧ c.lifetime ∈ names := by
  obtain ⟨rows, hrows, rfl⟩ := exists_of_map_eq_ok h
  rw [List.mem_flatten, ← Graph.mem_zipIdx_points]
  constructor
  · rintro ⟨row, hrow, hc⟩
    obtain ⟨⟨point, i⟩, hpoint, hhere⟩ := exists_of_mem_results hrows hrow
    obtain ⟨names, hnames, rfl⟩ := exists_of_map_eq_ok hhere
    obtain ⟨l, hl, rfl⟩ := List.mem_map.1 hc
    exact ⟨hpoint, rfl, names, hnames, hl⟩
  · rintro ⟨hpoint, horigin, names, hnames, hl⟩
    obtain ⟨row, hrow, hhere⟩ := exists_of_mem_mapM hrows hpoint
    obtain ⟨names', hnames', rfl⟩ := exists_of_map_eq_ok hhere
    rw [hnames] at hnames'
    cases hnames'
    refine ⟨_, hrow, List.mem_map.2 ⟨c.lifetime, hl, ?_⟩⟩
    rw [← horigin]

/-- No two constraints on points are the same. -/
theorem pairwise_liveOf {body : Body} {liveness : Liveness} {live : List LiveAt}
    (h : liveOf body liveness = .ok live) :
    live.Pairwise fun a b => a.lifetime = b.lifetime → a.index ≠ b.index := by
  obtain ⟨rows, hrows, rfl⟩ := exists_of_map_eq_ok h
  have hnumbers : (body.graph.points.zipIdx.map Prod.snd).Nodup := by
    rw [List.zipIdx_map_snd]
    exact List.nodup_range' _
  have hall := mapM_eq_ok.1 hrows
  clear h hrows
  generalize body.graph.points.zipIdx = items at hnumbers hall
  rw [List.pairwise_flatten]
  induction hall with
  | nil => simp
  | @cons item row items rows hrow hrest ih =>
    obtain ⟨names, -, rfl⟩ := exists_of_map_eq_ok hrow
    rw [List.map_cons, List.nodup_cons] at hnumbers
    obtain ⟨hrowsDiff, hrowsApart⟩ := ih hnumbers.2
    refine ⟨?_, List.pairwise_cons.2 ⟨?_, hrowsApart⟩⟩
    · -- at one point the lifetimes are different
      intro row' hrow'
      rcases List.mem_cons.1 hrow' with rfl | hold
      · rw [List.pairwise_map]
        exact names.nodup_toList.imp fun hne heq => absurd heq hne
      · exact hrowsDiff row' hold
    · -- the constraints of other rows are at other points
      intro row' hrow' a ha b hb _
      obtain ⟨item', hitem', hhere⟩ := exists_of_mem_results (mapM_eq_ok.2 hrest) hrow'
      obtain ⟨names', -, rfl⟩ := exists_of_map_eq_ok hhere
      obtain ⟨l, -, rfl⟩ := List.mem_map.1 ha
      obtain ⟨l', -, rfl⟩ := List.mem_map.1 hb
      rintro heq
      exact hnumbers.1 (List.mem_map.2 ⟨item', hitem', heq.symm⟩)

/-! ### Demands -/

/-- Adding demands keeps the graph, the lifetimes and the constraints that are there, and leaves
each demand trivial or in the set. -/
theorem addDemands_eq_ok {set next : ConstraintSet} {demands : List Demand} (hbuilt : set.Built)
    (h : set.addDemands demands = .ok next) :
    next.Built ∧ next.graph = set.graph ∧ next.lifetimes = set.lifetimes ∧ next.live = set.live ∧
      (∀ c ∈ set.outlives, c ∈ next.outlives) ∧
      ∀ demand ∈ demands, (∃ i, set.graph.index? demand.point = some i) ∧
        (demand.longer = demand.shorter ∨ ∃ c ∈ next.outlives, c.longer = demand.longer ∧
          c.shorter = demand.shorter ∧ c.point = demand.point) := by
  unfold addDemands at h
  induction demands generalizing set with
  | nil =>
    cases h
    simp [hbuilt]
  | cons demand demands ih =>
    rw [List.foldlM_cons] at h
    obtain ⟨_, hadded, h⟩ := exists_of_bind_eq_ok h
    obtain ⟨⟨grown, added⟩, hadd, rfl⟩ := exists_of_map_eq_ok hadded
    obtain ⟨hnext, hgraph, hlifetimes, hlive, hkeeps, hdemands⟩ :=
      ih (hbuilt.addOutlives hadd) h
    obtain ⟨-, i, hindex, ⟨hsame, hthere⟩ | hgrown⟩ := addOutlives_cases hadd
    · rw [hsame] at hgraph hlifetimes hlive hkeeps hdemands
      refine ⟨hnext, hgraph, hlifetimes, hlive, hkeeps, fun demand' hdemand' => ?_⟩
      rcases List.mem_cons.1 hdemand' with rfl | hrest
      · refine ⟨⟨i, hindex⟩, hthere.imp_right ?_⟩
        rintro ⟨c, hc, heq⟩
        exact ⟨c, hkeeps c hc, heq⟩
      · exact hdemands demand' hrest
    · rw [hgrown] at hgraph hlifetimes hlive hkeeps hdemands
      refine ⟨hnext, hgraph, hlifetimes, hlive,
        fun c hc => hkeeps c (List.mem_append_left _ hc), fun demand' hdemand' => ?_⟩
      rcases List.mem_cons.1 hdemand' with rfl | hrest
      · exact ⟨⟨i, hindex⟩, .inr ⟨_, hkeeps _ (List.mem_append_right _ List.mem_cons_self),
          rfl, rfl, rfl⟩⟩
      · exact hdemands demand' hrest

/-! ### The whole set -/

section

variable {body : Body} {liveness : Liveness} {set : ConstraintSet}

/-- What making the constraints of a body comes to. -/
theorem ofBody_eq_ok (h : ofBody body liveness = .ok set) :
    ∃ live demands opened, liveOf body liveness = .ok live ∧ Demand.ofBody body = .ok demands ∧
      ((ConstraintSet.new body.graph (body.lifetimes.map Lifetime.name)).appendLive live).addDemands
        demands = .ok opened ∧ set = opened.freeze := by
  unfold ofBody at h
  obtain ⟨live, hlive, h⟩ := exists_of_bind_eq_ok h
  obtain ⟨demands, hdemands, h⟩ := exists_of_bind_eq_ok h
  obtain ⟨opened, hopened, h⟩ := exists_of_bind_eq_ok h
  cases h
  exact ⟨live, demands, opened, hlive, hdemands, hopened, rfl⟩

/-- The constraints on points may have been added one by one. -/
theorem built_of_liveOf (hbody : liveness.body = body) {live : List LiveAt}
    (h : liveOf body liveness = .ok live) :
    Built ((ConstraintSet.new body.graph (body.lifetimes.map Lifetime.name)).appendLive live) := by
  have hempty := Built.new body.graph (body.lifetimes.map Lifetime.name)
  refine hempty.append_live rfl ?_ ?_ ?_ ?_
  · intro c hc
    obtain ⟨-, -, names, hnames, hl⟩ := (mem_liveOf h).1 hc
    rw [ConstraintSet.new, List.mem_eraseDups, ← hbody]
    exact Liveness.mem_lifetimes_of_lifetimesAt hnames hl
  · intro c hc
    exact ((mem_liveOf h).1 hc).1
  · intro other hother
    cases hother
  · -- different numbers are those of different points
    refine (pairwise_liveOf h).imp_of_mem ?_
    intro a b ha hb hne hlifetime hpoint
    have hindex := ((mem_liveOf h).1 ha).1
    rw [hpoint, ((mem_liveOf h).1 hb).1] at hindex
    exact hne hlifetime (Option.some.inj hindex).symm

/-- The constraints of a body are a built set, over its graph and its lifetimes. -/
theorem ofBody_built (hbody : liveness.body = body) (h : ofBody body liveness = .ok set) :
    set.Built ∧ set.graph = body.graph ∧
      set.lifetimes = (body.lifetimes.map Lifetime.name).eraseDups := by
  obtain ⟨live, demands, opened, hlive, -, hopened, rfl⟩ := ofBody_eq_ok h
  obtain ⟨hbuilt, hgraph, hlifetimes, -⟩ :=
    addDemands_eq_ok (built_of_liveOf hbody hlive) hopened
  exact ⟨hbuilt.freeze, hgraph, hlifetimes⟩

/-- The constraints of a body on points are those of its live lifetimes. -/
theorem mem_live_ofBody (hbody : liveness.body = body) (h : ofBody body liveness = .ok set)
    {c : LiveAt} : c ∈ set.live ↔ body.graph.index? c.point = some c.index ∧
      c.origin = .liveness ∧ ∃ names, liveness.lifetimesAt c.index = .ok names ∧
        c.lifetime ∈ names := by
  obtain ⟨live, demands, opened, hlive, -, hopened, rfl⟩ := ofBody_eq_ok h
  obtain ⟨-, -, -, hsame, -⟩ := addDemands_eq_ok (built_of_liveOf hbody hlive) hopened
  have hset : opened.freeze.live = live := hsame
  rw [hset, mem_liveOf hlive]

/-- At every point the live lifetimes were found. -/
theorem exists_lifetimesAt (h : ofBody body liveness = .ok set) {point : Point} {i : Nat}
    (hpoint : body.graph.index? point = some i) :
    ∃ names, liveness.lifetimesAt i = .ok names := by
  obtain ⟨live, -, -, hlive, -⟩ := ofBody_eq_ok h
  obtain ⟨rows, hrows, -⟩ := exists_of_map_eq_ok hlive
  obtain ⟨row, -, hhere⟩ := exists_of_mem_mapM hrows (Graph.mem_zipIdx_points.2 hpoint)
  obtain ⟨names, hnames, -⟩ := exists_of_map_eq_ok hhere
  exact ⟨names, hnames⟩

/-- Where a local may still be read, its lifetimes have constraints. -/
theorem exists_live_of_read (hbody : liveness.body = body) (h : ofBody body liveness = .ok set)
    {point : Point} {i : Nat} (hpoint : body.graph.index? point = some i) {v l : String}
    (hv : v ∈ (liveness.factAt i).1) {found : Variable} (hfound : body.var v = .ok found)
    (hl : l ∈ found.ty.lifetimes) : ∃ c ∈ set.live, c.lifetime = l ∧ c.index = i := by
  obtain ⟨names, hnames⟩ := exists_lifetimesAt h hpoint
  refine ⟨⟨l, point, i, .liveness⟩, (mem_live_ofBody hbody h).2 ⟨hpoint, rfl, names, hnames, ?_⟩,
    rfl, rfl⟩
  refine (Liveness.mem_lifetimesAt hnames).2 (.inl ?_)
  rw [hbody]
  exact ⟨v, hv, found, hfound, hl⟩

/-- A demand holds in a set: its point is one of the graph, and it is trivial or one of the
constraints. -/
def Has (set : ConstraintSet) (demand : Demand) : Prop :=
  (∃ i, set.graph.index? demand.point = some i) ∧
    (demand.longer = demand.shorter ∨ ∃ c ∈ set.outlives, c.longer = demand.longer ∧
      c.shorter = demand.shorter ∧ c.point = demand.point)

/-- What a body demands holds in its constraints. -/
theorem has_of_mem (hbody : liveness.body = body) (h : ofBody body liveness = .ok set)
    {demands : List Demand} (hdemands : Demand.ofBody body = .ok demands) {demand : Demand}
    (hmem : demand ∈ demands) : set.Has demand := by
  obtain ⟨live, demands', opened, hlive, hdemands', hopened, rfl⟩ := ofBody_eq_ok h
  rw [hdemands] at hdemands'
  cases hdemands'
  obtain ⟨-, hgraph, -, -, -, hall⟩ := addDemands_eq_ok (built_of_liveOf hbody hlive) hopened
  obtain ⟨⟨i, hi⟩, hthere⟩ := hall demand hmem
  refine ⟨⟨i, ?_⟩, hthere⟩
  have hsame : opened.freeze.graph = body.graph := hgraph
  rw [hsame]
  exact hi

/-- The element at a point demands something, which holds in the constraints. -/
theorem exists_ofElement (hbody : liveness.body = body) (h : ofBody body liveness = .ok set)
    {point : Point} {element : Element} (hitem : (point, element) ∈ body.graph.items) :
    ∃ demands, Demand.ofElement body point element = .ok demands ∧
      ∀ demand ∈ demands, set.Has demand := by
  obtain ⟨-, demands, -, -, hdemands, -⟩ := ofBody_eq_ok h
  obtain ⟨rows, hrows, hrest⟩ := exists_of_bind_eq_ok hdemands
  obtain ⟨outside, -, heq⟩ := exists_of_bind_eq_ok hrest
  cases heq
  obtain ⟨row, hrow, helement⟩ := exists_of_mem_mapM hrows hitem
  refine ⟨row, helement, fun demand hdemand => has_of_mem hbody h hdemands ?_⟩
  exact List.mem_append_left _ (List.mem_flatten.2 ⟨row, hrow, hdemand⟩)

/-- An obligation demands something, which holds in the constraints. -/
theorem exists_ofObligation (hbody : liveness.body = body) (h : ofBody body liveness = .ok set)
    {obligation : Obligation} (hmem : obligation ∈ body.obligations) :
    ∃ demands, Demand.ofObligation obligation = .ok demands ∧
      ∀ demand ∈ demands, set.Has demand := by
  obtain ⟨-, demands, -, -, hdemands, -⟩ := ofBody_eq_ok h
  obtain ⟨rows, -, hrest⟩ := exists_of_bind_eq_ok hdemands
  obtain ⟨outside, houtside, heq⟩ := exists_of_bind_eq_ok hrest
  cases heq
  obtain ⟨row, hrow, hobligation⟩ := exists_of_mem_mapM houtside hmem
  refine ⟨row, hobligation, fun demand hdemand => has_of_mem hbody h hdemands ?_⟩
  exact List.mem_append_right _ (List.mem_flatten.2 ⟨row, hrow, hdemand⟩)

end

end ConstraintSet

end RegionInference
