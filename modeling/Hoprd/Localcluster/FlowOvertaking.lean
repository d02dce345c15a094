import Hoprd.Localcluster.Flow

/-!
# Overtaking in a flow (`localcluster/src/relay.rs`, `sender_worker`)

With a delay that varies, datagrams may overtake each other. `release_order` says how far:
when a datagram is handed to the socket, those that wait in the heap with it are released
no earlier, so what is handed to the socket after it is released no earlier or was not in the
heap yet.
-/
namespace Hoprd.Localcluster

open Core

variable {maxInstant : Instant} {delay : Option DelayDist}

/-- What is handed over since `s`, and what is in the heap, was in the heap at `s` or got its
number later. -/
structure Since (s s' : FlowSt) : Prop where
  counter : s.flow.seq ≤ s'.flow.seq
  heap : ∀ e ∈ s'.flow.heap.entries, e ∈ s.flow.heap.entries ∨ s.flow.seq ≤ e.seq
  handed : ∃ later, s'.flow.handed = s.flow.handed ++ later ∧
    ∀ b ∈ later, b.entry ∈ s.flow.heap.entries ∨ s.flow.seq ≤ b.entry.seq

theorem since_refl (s : FlowSt) : Since s s where
  counter := le_refl _
  heap _ he := .inl he
  handed := ⟨[], (List.append_nil _).symm, fun _ hb => nomatch hb⟩

/-- Where the heap gets no entry and nothing is handed over. -/
theorem since_same {s t t' : FlowSt} (h : Since s t) (hseq : t'.flow.seq = t.flow.seq)
    (hheap : ∀ e ∈ t'.flow.heap.entries, e ∈ t.flow.heap.entries)
    (hhanded : t'.flow.handed = t.flow.handed) : Since s t' where
  counter := by rw [hseq]; exact h.counter
  heap e he := h.heap e (hheap e he)
  handed := by rw [hhanded]; exact h.handed

theorem since_worked {s t : FlowSt} {f : Flow} {l : Flow.WorkerLabel} (h : Since s t)
    (hw : t.flow.Worked maxInstant t.now l f) : Since s { t with flow := f } := by
  cases hw with
  | drain due e heap ok hp hpop =>
    have hentries := MinHeap.pop_entries hpop
    obtain ⟨later, hlater, hall⟩ := h.handed
    refine ⟨h.counter, fun b hb => h.heap b ?_, later ++ [⟨e, t.now, ok⟩], ?_, fun b hb => ?_⟩
    · rw [hentries]
      exact List.mem_cons_of_mem _ hb
    · show t.flow.handed ++ _ = _
      rw [hlater, List.append_assoc]
    · rcases List.mem_append.mp hb with hb | hb
      · exact hall b hb
      · rw [List.mem_singleton.mp hb]
        refine h.heap e ?_
        rw [hentries]
        exact List.mem_cons_self
  | push next d chan sampled =>
    refine ⟨h.counter.trans (Nat.le_succ _), fun b hb => ?_, h.handed⟩
    rcases MinHeap.mem_push.mp hb with rfl | hb
    · exact .inr h.counter
    · exact h.heap b hb
  | closed | panic => exact since_same h rfl (fun _ he => nomatch he) rfl
  | wake | park | heapFull | overflow | timer => exact since_same h rfl (fun _ he => he) rfl

theorem since_step {s t t' : FlowSt} {l : FlowLabel} (h : Since s t)
    (hstep : flowStep maxInstant t l = some t') : Since s t' := by
  rcases flowStep_cases hstep with ⟨now, -, -, rfl⟩ | ⟨arrival, bytes, -, -, rfl⟩ | ⟨-, rfl⟩ |
    ⟨f, l', -, hw, rfl⟩
  · exact ⟨h.counter, h.heap, h.handed⟩
  · obtain ⟨-, hs⟩ | ⟨-, -, hs⟩ | ⟨-, -, hs⟩ := t.flow.trySend_cases arrival bytes
    · exact since_same h (by rw [hs]) (by rw [hs]; exact fun _ he => he) (by rw [hs])
    · exact since_same h (by rw [hs]) (by rw [hs]; exact fun _ he => he) (by rw [hs])
    · exact since_same h (by rw [hs]) (by rw [hs]; exact fun _ he => he) (by rw [hs])
  · exact ⟨h.counter, h.heap, h.handed⟩
  · exact since_worked h hw

theorem release_le_of_key_le {a b : Entry} (h : a.key ≤ b.key) : a.release ≤ b.release := by
  rcases (Prod.Lex.le_iff).mp h with hlt | ⟨heq, -⟩
  · exact le_of_lt hlt
  · exact le_of_eq heq

/-- **Release order.** After a datagram is handed to the socket, in every run, whatever the
delay. -/
theorem release_order {s t u : FlowSt} {ok : Bool} {ls : List FlowLabel}
    (hdrain : flowStep maxInstant s (.work (.drain ok)) = some t)
    (hrun : (flowSystem maxInstant delay).Run t ls u) :
    ∃ a later, a ∈ s.flow.heap.entries ∧
      u.flow.handed = s.flow.handed ++ ⟨a, s.now, ok⟩ :: later ∧
      ∀ b ∈ later, a.release ≤ b.entry.release ∨ s.flow.seq ≤ b.entry.seq := by
  obtain ⟨f, hwork, rfl⟩ := Option.map_eq_some_iff.mp hdrain
  cases Flow.work_cases hwork with
  | drain due a heap ok hp hpop hdue =>
    have hentries := MinHeap.pop_entries hpop
    have hsince := hrun.preserves (fun _ _ _ h hs => since_step h hs) (since_refl _)
    obtain ⟨later, hlater, hall⟩ := hsince.handed
    refine ⟨a, later, ?_, ?_, fun b hb => ?_⟩
    · rw [hentries]
      exact List.mem_cons_self
    · rw [hlater]
      exact List.append_assoc _ [_] later
    · rcases hall b hb with hheap | hcounter
      · refine .inl (release_le_of_key_le (MinHeap.pop_le hpop b.entry ?_))
        rw [hentries]
        exact List.mem_cons_of_mem _ hheap
      · exact .inr hcounter

/-- Of two datagrams that wait, the second is released first and overtakes the other. -/
theorem overtaking_by_release : ∃ s u : FlowSt,
    u.flow.handed.map (fun h => h.entry.release) = [16, 30] ∧
    ∃ a later, a ∈ s.flow.heap.entries ∧
      u.flow.handed = s.flow.handed ++ ⟨a, s.now, true⟩ :: later ∧
      ∀ b ∈ later, a.release ≤ b.entry.release ∨ s.flow.seq ≤ b.entry.seq := by
  obtain ⟨s, t, u, -, hdrain, hrun, hhanded⟩ : ∃ s t u : FlowSt,
      LTS.exec (flowStep 1000) ⟨9, .new (some (.uniform 5 30))⟩ (overtaking.take 10) = some s ∧
      flowStep 1000 s (.work (.drain true)) = some t ∧
      (flowSystem 1000 (some (.uniform 5 30))).Run t [.work (.drain false)] u ∧
      u.flow.handed.map (fun h => h.entry.release) = [16, 30] :=
    ⟨_, _, _, rfl, rfl, LTS.ofFn_run_iff.2 rfl, rfl⟩
  exact ⟨s, u, hhanded, release_order hdrain hrun⟩

end Hoprd.Localcluster
