import AgentPlatform.Guarantees.Starting
import AgentPlatform.Ownership.Readings
import Mathlib.Data.List.TakeWhile

/-! # The `Idempotency-Key` header

A value that is not readable as text is treated as if it had not been sent, so the run it creates has no key and
is outside the unique index. All other values that are not blank give a key, and with it one run.
-/

set_option autoImplicit false

namespace AgentPlatform

open Interleaving Relational Database Scenario

/-! ## Header values -/

namespace HeaderValue

/-- Only visible ASCII, spaces and tabs. -/
def Readable (value : HeaderValue) : Prop := ∀ byte ∈ value, 32 ≤ byte ∧ byte < 127 ∨ byte = 9

/-- Nothing but spaces and tabs. -/
def Blank (value : HeaderValue) : Prop := ∀ byte ∈ value, byte = 32 ∨ byte = 9

/-- What HTTP allows: no control characters but the tab. -/
def Legal (value : HeaderValue) : Prop := ∀ byte ∈ value, 32 ≤ byte ∧ byte ≠ 127 ∨ byte = 9

instance (value : HeaderValue) : Decidable value.Legal := inferInstanceAs (Decidable (∀ byte ∈ value, _))

instance (value : HeaderValue) : Decidable value.Readable := inferInstanceAs (Decidable (∀ byte ∈ value, _))

instance (value : HeaderValue) : Decidable value.Blank := inferInstanceAs (Decidable (∀ byte ∈ value, _))

/-- The bytes as characters. -/
def text (value : HeaderValue) : String := String.ofList (value.map fun byte => Char.ofNat byte.toNat)

variable {value : HeaderValue}

theorem toStr_eq_some (readable : value.Readable) : value.toStr = some value.text := by
  refine if_pos (List.all_eq_true.mpr fun byte member => ?_)
  simpa using readable byte member

theorem toStr_eq_none (unreadable : ¬ value.Readable) : value.toStr = none := by
  refine if_neg fun all => unreadable fun byte member => ?_
  simpa using List.all_eq_true.mp all byte member

end HeaderValue

/-- A text with a visible character is not empty after it was trimmed. -/
theorem trim_ne_empty {text : String} {c : Char} (member : c ∈ text.toList) (visible : isWhitespace c = false) :
    (trim text).isEmpty = false := by
  have some_left : text.toList.dropWhile isWhitespace ≠ [] := fun gone => by
    have white := List.dropWhile_eq_nil_iff.mp gone c member
    rw [visible] at white
    cases white
  have first := List.dropWhile_get_zero_not isWhitespace text.toList (List.length_pos_of_ne_nil some_left)
  have kept : (text.toList.dropWhile isWhitespace).reverse.dropWhile isWhitespace ≠ [] := fun gone =>
    first (List.dropWhile_eq_nil_iff.mp gone _ (List.mem_reverse.mpr (List.getElem_mem _)))
  rw [Bool.eq_false_iff, ne_eq, String.isEmpty_iff]
  intro empty
  have characters := congrArg String.toList empty
  unfold trim at characters
  rw [String.toList_ofList, String.toList_empty, List.reverse_eq_nil_iff] at characters
  exact kept characters

private theorem visible_ascii : ∀ n < 127, 32 < n → isWhitespace (Char.ofNat n) = false := by decide

namespace Http

variable {headers : HeaderMap} {value : HeaderValue}

theorem idempotencyKey_of_readable (sent : headers.idempotencyKey = some value) (visible : ¬ value.Blank)
    (readable : value.Readable) : idempotencyKey headers = some (trim value.text) := by
  have kept : (trim value.text).isEmpty = false := by
    simp only [HeaderValue.Blank, not_forall, not_or] at visible
    obtain ⟨byte, member, space, tab⟩ := visible
    refine trim_ne_empty (c := Char.ofNat byte.toNat) ?_ ?_
    · rw [HeaderValue.text, String.toList_ofList]
      exact List.mem_map_of_mem member
    · rcases readable byte member with ⟨low, high⟩ | same
      · refine visible_ascii byte.toNat high (Nat.lt_of_le_of_ne low fun same => space ?_)
        exact UInt8.toNat_inj.mp same.symm
      · exact absurd same tab
  simp only [idempotencyKey, sent, HeaderValue.toStr_eq_some readable, Option.bind_eq_bind, Option.bind_some]
  rw [kept]
  rfl

theorem idempotencyKey_of_unreadable (sent : headers.idempotencyKey = some value) (unreadable : ¬ value.Readable) :
    idempotencyKey headers = none := by
  simp [idempotencyKey, sent, HeaderValue.toStr_eq_none unreadable]

end Http

/-! ## The run that a request creates -/

section Created

variable {lib : Libraries} {config : Config} {events : List (Event (platform lib config))}
  {pool : Pool (platform lib config)} {headers : HeaderMap} {agentId : Uuid} {body : StartRunRequest}
  {value : HeaderValue} {i : ℕ}

/-- A run is inserted for the agent that was read, with the messages and the key of the request. -/
def InsertsFor (headers : HeaderMap) (agentId : Uuid) (body : StartRunRequest) (past : List (Performed signature))
    (op : Op) : Prop :=
  ∀ tx tenantId agent messages key, op = .sql (.insertRun tx tenantId agent messages key) →
    key = Http.idempotencyKey headers ∧ messages = ChatMessage.listToValue body.messages ∧
    ∃ row : AgentRow, ⟨.sql (.getAgent tenantId agentId), .ok (some row)⟩ ∈ past ∧ row.id = agent

theorem along_insertsFor : ((Request.startRun headers agentId body).handler lib).Along
    (InsertsFor headers agentId body) (fun _ _ => True) [] := by
  have quiet {kind : Op → Prop} {α : Type} {program : Act α} {past : List (Performed signature)}
      (uses : program.Uses kind)
      (other : ∀ tx tenantId agent messages key, ¬ kind (.sql (.insertRun tx tenantId agent messages key))) :
      program.Along (InsertsFor headers agentId body) (fun _ _ => True) past := by
    refine (Program.Along.of_uses uses ?_).mono fun _ _ _ => True.intro
    rintro more op kind tx tenantId agent messages key rfl
    exact (other _ _ _ _ _ kind).elim
  have looks : (authenticate lib headers).Uses fun op : Op =>
      ∃ keyPrefix, op = .sql (.findActiveApiKeyByPrefix keyPrefix) :=
    uses_authenticate fun keyPrefix => ⟨keyPrefix, rfl⟩
  refine Program.Along.bind _ (quiet looks (by simp)) (fun past tenant _ => ?_) fun _ _ _ => True.intro
  refine ⟨by rintro _ _ _ _ _ ⟨⟩, fun answer => ?_⟩
  rcases answer with fault | _ | agent
  · trivial
  · trivial
  change (if body.messages.isEmpty then _ else _ : Act Response).Along _ _ _
  split
  · trivial
  refine Program.Along.bind (fun _ _ => True)
    ((Program.Along.of_uses (uses_createOrGetRun ..) ?_).mono fun _ _ _ => True.intro)
    (fun past outcome _ => ?_) fun _ _ _ => True.intro
  · rintro more op inserts tx tenantId other messages key rfl
    obtain ⟨rfl, rfl, rfl, rfl⟩ := inserts
    exact ⟨rfl, rfl, agent, by simp, rfl⟩
  obtain ⟨run, created⟩ := outcome
  cases created with
  | false => trivial
  | true =>
    refine Program.Along.bind _ (quiet uses_startCreatedRun fun _ _ _ _ _ => id)
      (fun _ _ _ => True.intro) fun _ _ _ => True.intro

/-- Thread `i` is a request to start a run of this agent with this `Idempotency-Key`. -/
def Sends (pool : Pool (platform lib config)) (i : ℕ) (agentId : Uuid) (value : HeaderValue) : Prop :=
  ∃ thread headers body, pool.threads[i]? = some thread ∧ thread.task = .http (.startRun headers agentId body) ∧
    headers.idempotencyKey = some value

/-- Thread `i` has inserted this run. -/
def CreatesRun (events : List (Event (platform lib config))) (i : ℕ) (run : RunRow) : Prop :=
  ∃ tx tenantId agentId messages key row,
    ⟨.sql (.insertRun tx tenantId agentId messages key), .ok row⟩ ∈ doneBy i events ∧ row.SameRequest run

/-- The row that a request inserts has the agent, the messages and the key of the request. -/
theorem inserted_for (path : Path (started lib config) events pool) {thread : Thread (platform lib config)}
    (present : pool.threads[i]? = some thread) (task : thread.task = .http (.startRun headers agentId body))
    {tx tenantId agent : Uuid} {messages : Value} {key : Option String} {row : RunRow}
    (done : ⟨.sql (.insertRun tx tenantId agent messages key), .ok row⟩ ∈ doneBy i events) :
    row.agentId = agentId ∧ row.inputMessages = ChatMessage.listToValue body.messages ∧
      row.idempotencyKey = Http.idempotencyKey headers := by
  obtain ⟨c, member⟩ := mem_doneBy.mp done
  obtain ⟨before, after, rfl⟩ := List.append_of_mem member
  have along : ((platform lib config).body thread.task).Along (InsertsFor headers agentId body)
      (fun _ _ => True) [] := by
    rw [task]
    exact along_insertsFor
  obtain ⟨rfl, rfl, read, found, id⟩ := path.along_performed rfl present along _ _ _ _ _ rfl
  obtain ⟨middle, next, earlier, step, _⟩ := path.cut
  obtain ⟨_, _, sameId⟩ := agent_of_read earlier found
  obtain ⟨createdAt, rfl⟩ := (executed (execute_of_step step)).inserted_row
  exact ⟨id.symm.trans sameId, rfl, rfl⟩

/-- A run has the agent and the key of the request that created it. -/
theorem created_for (path : Path (started lib config) events pool) {thread : Thread (platform lib config)}
    {run : RunRow} (present : pool.threads[i]? = some thread)
    (task : thread.task = .http (.startRun headers agentId body)) (creates : CreatesRun events i run) :
    run.agentId = agentId ∧ run.idempotencyKey = Http.idempotencyKey headers := by
  obtain ⟨tx, tenantId, agent, messages, key, row, done, same⟩ := creates
  obtain ⟨agentIs, _, keyIs⟩ := inserted_for path present task done
  exact ⟨same.agentId.trans agentIs, same.idempotencyKey.trans keyIs⟩

/-- Every run that a request with a non-blank `Idempotency-Key` creates has the trimmed value as its key exactly
if the value is readable. All requests of a tenant with one readable value for one agent create one run at most. -/
theorem keyed_iff_readable (path : Path (started lib config) events pool) (visible : ¬ value.Blank) :
    (∀ i, Sends pool i agentId value → ∀ run ∈ pool.shared.db.store.runs, CreatesRun events i run →
      (run.idempotencyKey = some (trim value.text) ↔ value.Readable)) ∧
    (value.Readable → ∀ i j, Sends pool i agentId value → Sends pool j agentId value →
      ∀ run ∈ pool.shared.db.store.runs, ∀ other ∈ pool.shared.db.store.runs, CreatesRun events i run →
        CreatesRun events j other → run.tenantId = other.tenantId → run = other) := by
  have keyed {i : ℕ} {run : RunRow} (sends : Sends pool i agentId value) (creates : CreatesRun events i run)
      (readable : value.Readable) : run.agentId = agentId ∧ run.idempotencyKey = some (trim value.text) := by
    obtain ⟨thread, headers, body, present, task, sent⟩ := sends
    obtain ⟨agent, key⟩ := created_for path present task creates
    exact ⟨agent, key.trans (Http.idempotencyKey_of_readable sent visible readable)⟩
  refine ⟨fun i sends run _ creates => ⟨fun key => ?_, fun readable => (keyed sends creates readable).2⟩, ?_⟩
  · by_contra unreadable
    obtain ⟨thread, headers, body, present, task, sent⟩ := sends
    have none_given := (created_for path present task creates).2
    rw [Http.idempotencyKey_of_unreadable sent unreadable, key] at none_given
    cases none_given
  · intro readable i j sends sends' run present other there creates creates' tenant
    obtain ⟨agent, key⟩ := keyed sends creates readable
    obtain ⟨agent', key'⟩ := keyed sends' creates' readable
    have scope : run.scope = some (run.tenantId, agentId, trim value.text) :=
      RunRow.scope_eq_some.mpr ⟨rfl, agent, key⟩
    have scope' : other.scope = some (run.tenantId, agentId, trim value.text) :=
      RunRow.scope_eq_some.mpr ⟨tenant.symm, agent', key'⟩
    exact (valid_of_started path).wellFormed.runs.scopes.committed.eq present there scope scope'

end Created

namespace Scenario

/-- Thread `i` sends this header for agent 22, and has inserted this run. -/
def creates {config : Config} (i : ℕ) (value : HeaderValue) (events : List (Event (platform permissive config)))
    (pool : Pool (platform permissive config)) (run : RunRow) : Bool :=
  (match pool.threads[i]? with
    | some ⟨.http (.startRun headers agentId body), _, _⟩ => agentId == 22 && headers.idempotencyKey == some value &&
        ChatMessage.listFromValue run.inputMessages == some body.messages
    | _ => false) &&
  (doneBy i events).any fun what => (insertedRun? what).any fun row => row.id == run.id &&
    row.tenantId == run.tenantId &&
    row.agentId == run.agentId && row.idempotencyKey == run.idempotencyKey && row.createdAt == run.createdAt

theorem of_creates {config : Config} {i : ℕ} {value : HeaderValue}
    {events : List (Event (platform permissive config))} {pool : Pool (platform permissive config)}
    (path : Path (started permissive config) events pool) {run : RunRow} (present : run ∈ pool.shared.db.store.runs)
    (checked : creates i value events pool run = true) : Sends pool i 22 value ∧ CreatesRun events i run := by
  obtain ⟨sent, inserted⟩ := Bool.and_eq_true_iff.mp checked
  obtain ⟨what, done, hit⟩ := List.any_eq_true.mp inserted
  split at sent
  · next headers agentId body owned program there =>
    simp only [Bool.and_eq_true, beq_iff_eq] at sent
    obtain ⟨⟨rfl, header⟩, decoded⟩ := sent
    refine ⟨⟨_, headers, body, there, rfl, header⟩, ?_⟩
    simp only [Option.any_eq_true, Bool.and_eq_true, beq_iff_eq] at hit
    obtain ⟨row, found, fields⟩ := hit
    unfold insertedRun? at found
    split at found
    · next tx tenantId agent messages key inserted =>
      cases found
      obtain ⟨original, stated⟩ :=
        (valid_of_started path).wellFormed.runs.messages run (mem_everything.mpr (.inl present))
      have asked := (inserted_for path there rfl done).2.1
      rw [stated, ChatMessage.listFromValue_listToValue] at decoded
      obtain ⟨⟨⟨⟨id, tenant⟩, agentIs⟩, keyIs⟩, time⟩ := fields
      refine ⟨tx, tenantId, agent, messages, key, row, done, id.symm, tenant.symm,
        agentIs.symm, ?_, keyIs.symm, time.symm⟩
      rw [stated, Option.some.inj decoded, asked]
    · cases found
  · cases sent

/-- A key that is not ASCII. -/
def accented : HeaderValue := [0x6B, 0xC3, 0xA9]

def retryKey : HeaderValue := "retry-1".toList.map fun c => UInt8.ofNat c.toNat

/-- Two requests with this key. -/
def twice (value : HeaderValue) : List (Label (platform permissive ⟨2, 2⟩)) :=
  onboarding ++ [arrive (.createAgent headers ⟨none, "Answer.", [], 5⟩)] ++ moves 2 20 5 ++
  [arrive (.startRun { headers with idempotencyKey := some value } 22 question)] ++ moves 3 30 10 ++
  [arrive (.startRun { headers with idempotencyKey := some value } 22 question)] ++ moves 5 50 10

/-- Two requests with this header have created two runs without a key. -/
def duplicated (value : HeaderValue) (events : List (Event (platform permissive ⟨2, 2⟩)))
    (pool : Pool (platform permissive ⟨2, 2⟩)) : Bool :=
  pool.shared.db.store.runs.any fun run => pool.shared.db.store.runs.any fun other =>
    creates 3 value events pool run && creates 5 value events pool other && run.id != other.id &&
    run.tenantId == other.tenantId && run.idempotencyKey == none && other.idempotencyKey == none

end Scenario

/-- A readable key is stored with the run. -/
theorem keyed_iff_readable_served : ∃ events pool, Path (started permissive ⟨1, 1⟩) events pool ∧
    ∃ (value : HeaderValue), ∃ run ∈ pool.shared.db.store.runs, Sends pool 3 22 value ∧ CreatesRun events 3 run ∧
      run.idempotencyKey = some (trim value.text) := by
  obtain ⟨events, pool, path, checked⟩ := (started permissive ⟨1, 1⟩).exists_path keyedStart
    (fun events pool => pool.shared.db.store.runs.any (creates 3 retryKey events pool)) (by decide +kernel)
  obtain ⟨run, present, created⟩ := List.any_eq_true.mp checked
  obtain ⟨sends, creates⟩ := of_creates path present created
  have keyed := (keyed_iff_readable path (by decide +kernel : ¬ retryKey.Blank)).1 3 sends run present creates
  exact ⟨events, pool, path, retryKey, run, present, sends, creates, keyed.mpr (by decide +kernel)⟩

/-- Two requests with the same value that is no text create two runs without a key. -/
theorem unreadable_key_twice : ∃ events pool, Path (started permissive ⟨2, 2⟩) events pool ∧
    ∃ value : HeaderValue, value.Legal ∧ ¬ value.Blank ∧ Sends pool 3 22 value ∧ Sends pool 5 22 value ∧
      ∃ run ∈ pool.shared.db.store.runs, ∃ other ∈ pool.shared.db.store.runs, run ≠ other ∧
        CreatesRun events 3 run ∧ CreatesRun events 5 other ∧ run.tenantId = other.tenantId ∧
        run.idempotencyKey = none ∧ other.idempotencyKey = none := by
  obtain ⟨events, pool, path, checked⟩ := (started permissive ⟨2, 2⟩).exists_path (twice accented)
    (duplicated accented) (by decide +kernel)
  simp only [duplicated, List.any_eq_true, Bool.and_eq_true, beq_iff_eq, bne_iff_ne] at checked
  obtain ⟨run, present, other, there, ⟨⟨⟨⟨first, second⟩, different⟩, tenant⟩, unkeyed⟩, unkeyed'⟩ := checked
  obtain ⟨sends, inserts⟩ := of_creates path present first
  obtain ⟨sends', inserts'⟩ := of_creates path there second
  exact ⟨events, pool, path, accented,
    by decide +kernel, by decide +kernel, sends, sends', run, present, other, there,
    fun same => different (congrArg RunRow.id same), inserts, inserts', tenant, unkeyed, unkeyed'⟩

end AgentPlatform
