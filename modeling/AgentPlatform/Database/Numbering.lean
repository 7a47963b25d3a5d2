import AgentPlatform.Database.Evolution

/-! # Sequence numbers

The events of a run are numbered from one in the order of their insertion, so that `get_trace`
returns them in that order.
-/

set_option autoImplicit false

namespace AgentPlatform

open Relational

/-- The `k`-th event of every run has the number `k + 1`. -/
def Store.Numbered (s : Store) : Prop :=
  ∀ tenantId runId (k : ℕ) (row : TraceRow), (s.traceRows tenantId runId)[k]? = some row → row.seq = k + 1

private theorem foldl_max_numbered {numbers : List Int}
    (numbered : ∀ (k : ℕ) (number : Int), numbers[k]? = some number → number = k + 1) :
    numbers.foldl max 0 = numbers.length := by
  induction numbers using List.reverseRec with
  | nil => rfl
  | append_singleton numbers last ih =>
    have before : numbers.foldl max 0 = numbers.length := ih fun k number found =>
      numbered k number (by rw [List.getElem?_append_left (List.getElem?_eq_some_iff.mp found).1]; exact found)
    have now : last = numbers.length + 1 := numbered numbers.length last (by simp)
    rw [List.foldl_append, before, now, List.length_append]
    simp only [List.foldl_cons, List.foldl_nil, List.length_singleton]
    omega

namespace Store.Numbered

variable {s : Store} {tenantId runId : Uuid}

theorem nextSeq (numbered : s.Numbered) : s.nextSeq tenantId runId = (s.traceRows tenantId runId).length + 1 := by
  rw [Store.nextSeq, foldl_max_numbered, List.length_map]
  intro k number found
  rw [List.getElem?_map] at found
  obtain ⟨row, present, rfl⟩ := Option.map_eq_some_iff.mp found
  exact numbered tenantId runId k row present

/-- `ORDER BY seq` keeps the order of insertion. -/
theorem sorted (numbered : s.Numbered) :
    (s.traceRows tenantId runId).insertionSort (·.seq ≤ ·.seq) = s.traceRows tenantId runId := by
  refine List.Pairwise.insertionSort_eq (List.pairwise_iff_getElem.mpr fun i j iBound jBound before => ?_)
  rw [numbered tenantId runId i _ (List.getElem?_eq_getElem iBound),
    numbered tenantId runId j _ (List.getElem?_eq_getElem jBound)]
  omega

end Store.Numbered

namespace Database

variable {db db' : Database} {c : Choice} {statement : Statement}

/-- The events of a run stay as they are, or get one more at the end. -/
theorem traceRows_executed {answer : Except SqlxError statement.Row} (ran : Executed c db statement answer db')
    (tenantId runId : Uuid) : db'.store.traceRows tenantId runId = db.store.traceRows tenantId runId ∨
      ∃ eventType payload, (⟨statement, answer⟩ : (s : Statement) × Except SqlxError s.Row) =
          ⟨.appendEvent tenantId runId eventType payload, .ok ()⟩ ∧
        db'.store.traceRows tenantId runId = db.store.traceRows tenantId runId ++
          [⟨c.id, tenantId, runId, db.store.nextSeq tenantId runId, eventType, payload, c.now⟩] := by
  cases ran with
  | unavailable failing => rw [lose_store]; exact .inl rfl
  | @appendEvent owner run eventType payload new found =>
    simp only [Store.traceRows, List.filter_append]
    by_cases mine : owner = tenantId ∧ run = runId
    · obtain ⟨rfl, rfl⟩ := mine
      exact .inr ⟨eventType, payload, rfl, by simp⟩
    · exact .inl (by simpa using mine)
  | _ => exact .inl rfl

theorem traceRows_appendEvent {tenantId runId : Uuid} {eventType : EventType} {payload : Value}
    (ran : Executed c db (.appendEvent tenantId runId eventType payload) (.ok ()) db') :
    db'.store.traceRows tenantId runId = db.store.traceRows tenantId runId ++
      [⟨c.id, tenantId, runId, db.store.nextSeq tenantId runId, eventType, payload, c.now⟩] := by
  cases ran with
  | select healthy answered => cases answered
  | appendEvent new run => simp [Store.traceRows]

/-- A statement keeps the numbering. -/
theorem numbered_executed {answer : Except SqlxError statement.Row} (ran : Executed c db statement answer db')
    (numbered : db.store.Numbered) : db'.store.Numbered := by
  intro tenantId runId k row found
  rcases traceRows_executed ran tenantId runId with same | ⟨eventType, payload, _, same⟩ <;> rw [same] at found
  · exact numbered tenantId runId k row found
  rw [List.getElem?_append] at found
  split at found
  · exact numbered tenantId runId k row found
  · rw [List.getElem?_singleton] at found
    split at found
    · cases found
      change db.store.nextSeq tenantId runId = k + 1
      rw [numbered.nextSeq]
      omega
    · cases found

end Database

end AgentPlatform
