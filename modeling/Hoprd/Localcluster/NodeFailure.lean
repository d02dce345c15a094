import Hoprd.Localcluster.Summary

/-!
# A node that does not come up (`localcluster/src/main.rs`)

`wait_nodes` awaits the checks of all nodes in any order and returns the first error, by
then without the id of the node. `main` records it as the cluster's: `Failed`, and the
error. `NodeState::Failed` is declared and rendered, but no node is ever put in it.

* `counts_run`: in `wait_nodes`, the checks that passed in the run tell each node's state.
* `ended_run`: after the failure there are only snapshots.
* `FailedRun.shows`: a snapshot served after the failure has the cluster failed, and every
  node in the state it had reached, the one that failed too.
* `failed_check_marked_iff`: so the node is marked only where nobody looks.
* `failed_node_unmarked`: a snapshot with the node still `Spawned`.
-/
namespace Hoprd.Summary

open Core

variable (args : Args)

/-! ## The checks of a run -/

def Label.passes (id : Nat) : Label → Bool
  | .checked id' => id' == id
  | _ => false

/-- How many checks of the node passed. -/
def passed (id : Nat) (ls : List Label) : Nat := ls.countP (Label.passes id)

/-- The state of a spawned node that passed so many checks. -/
def stateAfter : Nat → NodeState
  | 0 => .spawned
  | 1 => .started
  | _ => .ready

theorem stateAfter_ne_failed (n : Nat) : stateAfter n ≠ .failed := by
  match n with
  | 0 | 1 | _ + 2 => exact nofun

theorem passed_snoc (id : Nat) (ls : List Label) (l : Label) :
    passed id (ls ++ [l]) = passed id ls + if l.passes id then 1 else 0 := by
  simp [passed, List.countP_append, List.countP_singleton]

theorem passed_snoc_of_not {l : Label} {id : Nat} (h : l.passes id = false) (ls : List Label) :
    passed id (ls ++ [l]) = passed id ls := by
  rw [passed_snoc, h]
  rfl

/-- The checks passed in each phase: none before the nodes are spawned, then one for each
`wait_nodes` that is done with the node. -/
def CountAt (past : List Label) : Phase → Prop
  | .booting | .chainKnown | .generated => ∀ id, passed id past = 0
  | .waiting reached pending => ∀ id ∈ nodeIds args,
    passed id past + (if id ∈ pending then 2 else 1) = reached.rank
  | .fetching _ | .channels | .serving | .ended => True

theorem count_checked {past : List Label} {reached : NodeState} {pending : List Nat} {id : Nat}
    (hid : id ∈ pending) (hnodup : pending.Nodup)
    (h : CountAt args past (.waiting reached pending)) :
    CountAt args (past ++ [.checked id]) (.waiting reached (pending.erase id)) := by
  intro id' hid'
  have hcount := h id' hid'
  rw [passed_snoc]
  by_cases he : id = id'
  · -- one more check of the node, which is no longer pending
    subst he
    have hnot : id ∉ pending.erase id := hnodup.not_mem_erase
    have hpasses : (Label.checked id).passes id = true := beq_self_eq_true id
    rw [if_pos hid] at hcount
    rw [if_pos hpasses, if_neg hnot]
    omega
  · have hpasses : (Label.checked id).passes id' = false := beq_false_of_ne he
    have hiff : id' ∈ pending.erase id ↔ id' ∈ pending := List.mem_erase_of_ne (Ne.symm he)
    simp only [hpasses, hiff]
    exact hcount

theorem count_step {past : List Label} {s s' : St} {l : Label} (hi : PhaseInv args s)
    (hcount : CountAt args past s.phase) (h : step args s l = some s') :
    CountAt args (past ++ [l]) s'.phase := by
  have hcluster := hi.cluster
  cases l with
  | blokliUrl url | extras extras =>
    cases hp : s.phase <;> simp only [step, hp, Option.some.injEq, reduceCtorEq] at h
    subst h
    rw [hp] at hcount
    exact fun id => (passed_snoc_of_not rfl past).trans (hcount id)
  | spawned pids =>
    cases hp : s.phase <;> simp only [step, hp, Option.some.injEq, reduceCtorEq] at h
    subst h
    rw [hp] at hcount
    intro id hid
    rw [passed_snoc_of_not rfl, hcount id, if_pos hid]
    rfl
  | checked id =>
    cases hp : s.phase <;> simp only [step, hp, reduceCtorEq] at h
    rename_i reached pending
    rw [hp] at hcount hcluster
    by_cases hid : id ∈ pending
    · simp only [if_pos hid, Option.some.injEq] at h
      subst h
      exact count_checked args hid hcluster.2.2 hcount
    · simp only [if_neg hid, reduceCtorEq] at h
  | waited =>
    cases hp : s.phase <;> simp only [step, hp, reduceCtorEq] at h
    rename_i reached pending
    rw [hp] at hcount
    cases pending with
    | cons id pending => cases reached <;> simp at h
    | nil =>
      cases reached <;> simp only [Option.some.injEq, reduceCtorEq] at h
      · -- each node has passed one check, and is to be checked again
        subst h
        intro id hid
        have hone : passed id past = 1 := Nat.add_right_cancel (hcount id hid)
        rw [passed_snoc_of_not rfl, if_pos hid, hone]
        rfl
      · subst h
        trivial
  | address id address =>
    cases hp : s.phase <;> simp only [step, hp, reduceCtorEq] at h
    rename_i ids
    cases ids with
    | nil => simp at h
    | cons first ids =>
      by_cases hid : id = first
      · simp only [if_pos hid, Option.some.injEq] at h
        subst h
        trivial
      · simp only [if_neg hid, reduceCtorEq] at h
  | fetched =>
    cases hp : s.phase <;> simp only [step, hp, reduceCtorEq] at h
    rename_i ids
    cases ids with
    | cons first ids => simp at h
    | nil =>
      cases h
      trivial
  | channelsDone | shutdown =>
    cases hp : s.phase <;> simp only [step, hp, Option.some.injEq, reduceCtorEq] at h
    subst h
    trivial
  | fail error =>
    obtain rfl := fail_eq args h
    trivial
  | snapshot =>
    simp only [step, Option.some.injEq] at h
    subst h
    cases hp : s.phase with
    | booting | chainKnown | generated =>
      rw [hp] at hcount
      exact fun id => (passed_snoc_of_not rfl past).trans (hcount id)
    | waiting reached pending =>
      rw [hp] at hcount
      intro id hid
      rw [passed_snoc_of_not rfl]
      exact hcount id hid
    | fetching _ | channels | serving | ended => trivial

/-- What the summary and the run say of each other. -/
structure Counts (past : List Label) (s : St) : Prop where
  phase : PhaseInv args s
  count : CountAt args past s.phase

theorem counts_run {s₀ s : St} {ls : List Label} (h0 : (system args).init s₀)
    (h : (system args).Run s₀ ls s) : Counts args ls s := by
  have hstart : Counts args [] s₀ := by
    have hinv := ((inv_inductive args).init s₀ h0).phase
    obtain ⟨pid, rfl⟩ := h0
    exact ⟨hinv, fun _ => rfl⟩
  refine LTS.Run.history (fun past s l s' hi hs => ?_) hstart h
  exact ⟨(step_ok args hi.phase hs).inv, count_step args hi.phase hi.count hs⟩

/-- In `wait_nodes` a node is where its checks took it. -/
theorem Counts.state_eq {past : List Label} {s : St} (hi : Counts args past s)
    {reached : NodeState} {pending : List Nat} (hp : s.phase = .waiting reached pending)
    {n : NodeSummary} (hn : n ∈ s.summary.nodes) : n.state = stateAfter (passed n.id past) := by
  have hnode := hi.phase.nodes n hn
  have hcount := hi.count
  rw [hp] at hnode hcount
  have hpassed := hcount n.id (hi.phase.id_mem args hn)
  by_cases hid : n.id ∈ pending
  · rw [if_pos hid] at hpassed
    obtain ⟨-, ⟨rfl, hst⟩ | ⟨rfl, hst⟩⟩ := hnode
    · have hzero : passed n.id past = 0 := Nat.add_right_cancel hpassed
      rw [hst, if_pos hid, hzero]
      rfl
    · have hone : passed n.id past = 1 := Nat.add_right_cancel hpassed
      rw [hst, if_pos hid, hone]
      rfl
  · rw [if_neg hid] at hpassed
    obtain ⟨-, ⟨rfl, hst⟩ | ⟨rfl, hst⟩⟩ := hnode
    · have hone : passed n.id past = 1 := Nat.add_right_cancel hpassed
      rw [hst, if_neg hid, hone]
      rfl
    · have htwo : passed n.id past = 2 := Nat.add_right_cancel hpassed
      rw [hst, if_neg hid, htwo]
      rfl

/-! ## After the failure -/

theorem ended_step {s s' : St} {l : Label} (hp : s.phase = .ended)
    (h : step args s l = some s') :
    l = .snapshot ∧ s' = { s with served := s.served ++ [s.summary] } := by
  cases l with
  | snapshot =>
    simp only [step, Option.some.injEq] at h
    exact ⟨rfl, h.symm⟩
  | _ => simp [step, hp] at h

/-- After the end there are only snapshots, of the summary as it is. -/
theorem ended_run {s s' : St} {ls : List Label} (hp : s.phase = .ended)
    (h : (system args).Run s ls s') :
    (∀ l ∈ ls, l = .snapshot) ∧ s'.served = s.served ++ List.replicate ls.length s.summary := by
  induction h with
  | nil => exact ⟨nofun, (List.append_nil _).symm⟩
  | @cons s t u l ls hs _ ih =>
    obtain ⟨rfl, rfl⟩ := ended_step args hp hs
    obtain ⟨hall, hserved⟩ := ih hp
    refine ⟨fun l hl => ?_, ?_⟩
    · rcases List.mem_cons.1 hl with rfl | hl
      · rfl
      · exact hall l hl
    · rw [hserved, List.append_assoc, List.length_cons, List.replicate_succ]
      rfl

/-- A run in which the check of a node fails: `before` leads to the failure, `after` comes
once it is recorded. -/
structure FailedRun where
  id : Nat
  error : String
  before : List Label
  after : List Label
  start : St
  failing : St
  recorded : St
  last : St
  reached : NodeState
  pending : List Nat
  init : (system args).init start
  run_before : (system args).Run start before failing
  phase : failing.phase = .waiting reached pending
  /-- The check of the node is one of those that `wait_nodes` still awaits. -/
  awaited : id ∈ pending
  fails : (system args).step failing (.fail error) recorded
  run_after : (system args).Run recorded after last

/-- What was served since the failure was recorded. -/
def FailedRun.shown {args : Args} (r : FailedRun args) : List ClusterSummary :=
  r.last.served.drop r.recorded.served.length

/-- The cluster is failed, so is the node, and each other node that passed checks is where
they took it. -/
structure Marked (id : Nat) (past : List Label) (c : ClusterSummary) : Prop where
  ids : c.nodes.map NodeSummary.id = List.range args.size
  cluster : c.state = .failed
  node : ∃ n ∈ c.nodes, n.id = id ∧ n.state = .failed
  others : ∀ n ∈ c.nodes, n.id ≠ id → 0 < passed n.id past → n.state = stateAfter (passed n.id past)

variable {args}

theorem FailedRun.recorded_eq (r : FailedRun args) : r.recorded = { r.failing with
    phase := .ended
    summary := { r.failing.summary with state := .failed, error := some r.error } } :=
  fail_eq args r.fails

theorem FailedRun.shown_eq (r : FailedRun args) :
    r.shown = List.replicate r.after.length r.recorded.summary := by
  have hp : r.recorded.phase = .ended := by rw [r.recorded_eq]
  unfold FailedRun.shown
  rw [(ended_run args hp r.run_after).2, List.drop_left]

/-- **After the failure** a snapshot has the cluster failed with the error, and each node in
the state that its checks took it to. -/
theorem FailedRun.shows (r : FailedRun args) : ∀ c ∈ r.shown,
    c.nodes.map NodeSummary.id = List.range args.size ∧ c.state = .failed ∧
      c.error = some r.error ∧ ∀ n ∈ c.nodes, n.state = stateAfter (passed n.id r.before) := by
  intro c hc
  have hcounts := counts_run args r.init r.run_before
  rw [r.shown_eq] at hc
  obtain rfl := List.eq_of_mem_replicate hc
  rw [r.recorded_eq]
  exact ⟨hcounts.phase.ids, rfl, rfl, fun n hn => hcounts.state_eq args r.phase hn⟩

theorem FailedRun.not_marked (r : FailedRun args) {c : ClusterSummary} (hc : c ∈ r.shown) :
    ¬Marked args r.id r.before c := by
  intro hmarked
  obtain ⟨n, hn, -, hfailed⟩ := hmarked.node
  have hstate := (r.shows c hc).2.2.2 n hn
  exact stateAfter_ne_failed _ (hstate.symm.trans hfailed)

/-- **The node that failed is marked** exactly where no snapshot is served after it. -/
theorem failed_check_marked_iff (r : FailedRun args) :
    (∀ c ∈ r.shown, Marked args r.id r.before c) ↔ .snapshot ∉ r.after := by
  have hp : r.recorded.phase = .ended := by rw [r.recorded_eq]
  constructor
  · intro h hmem
    have hlength : r.after.length ≠ 0 := Nat.ne_of_gt (List.length_pos_of_mem hmem)
    have hc : r.recorded.summary ∈ r.shown := by
      rw [r.shown_eq]
      exact List.mem_replicate.2 ⟨hlength, rfl⟩
    exact r.not_marked hc (h _ hc)
  · intro hnone c hc
    have hafter : r.after = [] := by
      rw [List.eq_nil_iff_forall_not_mem]
      intro l hl
      obtain rfl := (ended_run args hp r.run_after).1 l hl
      exact hnone hl
    rw [r.shown_eq, hafter] at hc
    cases hc

/-! ## A node that is not marked -/

/-- Node 0 starts, the check of node 1 fails, and a client asks. -/
def unstartedBefore : List Label :=
  [.blokliUrl "http://chain:8080", .extras [], .spawned (fun id => UInt32.ofNat (100 + id)),
    .checked 0]

def afterLabels (ls : List Label) : St :=
  (LTS.exec (step twoNodes) ⟨.initial twoNodes 1, .booting, []⟩ ls).getD
    ⟨.initial twoNodes 1, .booting, []⟩

def unstarted : FailedRun twoNodes where
  id := 1
  error := "timeout"
  before := unstartedBefore
  after := [.snapshot]
  start := ⟨.initial twoNodes 1, .booting, []⟩
  failing := afterLabels unstartedBefore
  recorded := afterLabels (unstartedBefore ++ [.fail "timeout"])
  last := afterLabels (unstartedBefore ++ [.fail "timeout", .snapshot])
  reached := .started
  pending := [1]
  init := ⟨1, rfl⟩
  run_before := LTS.ofFn_run_iff.2 rfl
  phase := rfl
  awaited := List.mem_singleton_self 1
  fails := show step twoNodes (afterLabels unstartedBefore) (.fail "timeout") = some _ from rfl
  run_after := LTS.ofFn_run_iff.2 rfl

theorem failed_node_unmarked :
    unstarted.shown.map (fun c => (c.state, c.nodes.map NodeSummary.state)) =
      [(.failed, [.started, .spawned])] ∧
    ¬ ∀ (args : Args) (r : FailedRun args), ∀ c ∈ r.shown, Marked args r.id r.before c := by
  refine ⟨rfl, fun h => ?_⟩
  have hc : (afterLabels (unstartedBefore ++ [.fail "timeout"])).summary ∈ unstarted.shown :=
    List.mem_singleton_self _
  exact unstarted.not_marked hc (h twoNodes unstarted _ hc)

end Hoprd.Summary
