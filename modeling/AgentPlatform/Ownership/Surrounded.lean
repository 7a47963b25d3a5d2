import AgentPlatform.Interleaving.Surroundings
import AgentPlatform.Ownership.Verified

/-! # Rules for one handler among others

How a statement and the authentication of a request behave in given surroundings.
-/

set_option autoImplicit false

namespace AgentPlatform

open Interleaving Relational Database

variable {lib : Libraries} {config : Config} {E : Surroundings (platform lib config)}
  {legal : List (Performed signature) → Performed signature → World → World → Prop} {w : World}
  {past : List (Performed signature)} {ε α : Type} {post : Except ε α → World → List (Performed signature) → Prop}

section Statements

variable {statement : Statement} {next : Except SqlxError statement.Row → Program signature ε α} {P : World → Prop}

/-- The rule for a statement. -/
theorem ensures_sql (now : P w) (stable : ∀ s t, E.rely (.sql statement) s t → P s → P t)
    (rule : ∀ t c answer db, P t → E.sound t → E.grants (.sql statement) c t →
      t.db.execute c statement = some (answer, db) → legal past ⟨.sql statement, answer⟩ t { t with db } ∧
        E.Ensures legal post (next answer) { t with db } (past ++ [⟨.sql statement, answer⟩])) :
    E.Ensures legal post (.call (.sql statement) next) w past := by
  apply Surroundings.Ensures.call now stable
  intro t c owned effect still sound granted ran
  obtain ⟨⟨answer, db⟩, executed, rfl⟩ := Option.map_eq_some_iff.mp ran
  exact rule t c answer db still sound granted executed

/-- The rule for a statement whose error is an error of the program. -/
theorem ensures_query {rest : statement.Row → Act α}
    {post : Except AppError α → World → List (Performed signature) → Prop} (now : P w)
    (stable : ∀ s t, E.rely (.sql statement) s t → P s → P t) (ok : ∀ t c row db, P t → E.sound t →
      E.grants (.sql statement) c t → t.db.execute c statement = some (.ok row, db) →
      legal past ⟨.sql statement, .ok row⟩ t { t with db } ∧
        E.Ensures legal post (rest row) { t with db } (past ++ [⟨.sql statement, .ok row⟩]))
    (error : ∀ t c error db, P t → E.sound t → E.grants (.sql statement) c t →
      t.db.execute c statement = some (.error error, db) → legal past ⟨.sql statement, .error error⟩ t { t with db } ∧
        post (.error (.db error)) { t with db } (past ++ [⟨.sql statement, .error error⟩])) :
    E.Ensures legal post (query statement >>= rest) w past := by
  apply ensures_sql now stable
  intro t c answer db still sound granted ran
  cases answer with
  | ok row => exact ok t c row db still sound granted ran
  | error fault => exact error t c fault db still sound granted ran

/-- The rule for a statement that only reads. -/
theorem ensures_select (now : P w) (stable : ∀ s t, E.rely (.sql statement) s t → P s → P t)
    (reads : ∀ (s : Store) c, (s.select c statement).isSome = true)
    (ok : ∀ t c row, P t → E.sound t → E.grants (.sql statement) c t → c.fail = false →
      t.db.store.select c statement = some row → legal past ⟨.sql statement, .ok row⟩ t t ∧
        E.Ensures legal post (next (.ok row)) t (past ++ [⟨.sql statement, .ok row⟩]))
    (error : ∀ t c, P t → E.sound t → E.grants (.sql statement) c t → c.fail = true →
      legal past ⟨.sql statement, .error .unavailable⟩ t t ∧
        E.Ensures legal post (next (.error .unavailable)) t (past ++ [⟨.sql statement, .error .unavailable⟩])) :
    E.Ensures legal post (.call (.sql statement) next) w past := by
  apply ensures_sql now stable
  intro t c answer db still sound granted ran
  obtain ⟨row, answered⟩ := Option.isSome_iff_exists.mp (reads t.db.store c)
  by_cases failing : c.fail = true
  · rw [execute_failing failing, lose, transaction?_of_select answered] at ran
    cases ran
    exact error t c still sound granted failing
  · have healthy : c.fail = false := Bool.eq_false_iff.mpr failing
    rw [execute_select healthy answered] at ran
    cases ran
    exact ok t c row still sound granted healthy answered

end Statements

/-! ## Authentication -/

/-- Why a request is not authenticated. -/
inductive Unauthenticated (E : Surroundings (platform lib config)) (headers : HeaderMap) (w : World) : AppError → Prop
  | unknown (nobody : ∀ tenantId, ¬ w.db.store.authenticates lib headers tenantId) :
      Unauthenticated E headers w .invalidApiKey
  | unreadable {apiKey keyPrefix : String} {row : ApiKeyRow} (parsed : headers.apiKey = some (apiKey, keyPrefix))
      (found : w.db.store.findApiKey keyPrefix = some row) (bad : lib.parsesHash row.keyHash = false) :
      Unauthenticated E headers w (.internal "stored api key hash is invalid")
  | failing {keyPrefix : String} {c : Choice} (granted : E.grants (.sql (.findActiveApiKeyByPrefix keyPrefix)) c w)
      (failing : c.fail = true) : Unauthenticated E headers w (.db .unavailable)

/-- A request that is known fails to authenticate only if its statement fails. -/
theorem Unauthenticated.failed {headers : HeaderMap} {fault : AppError} {tenantId : Uuid}
    (refused : Unauthenticated E headers w fault) (known : w.db.store.authenticates lib headers tenantId) :
    ∃ keyPrefix c, E.grants (.sql (.findActiveApiKeyByPrefix keyPrefix)) c w ∧ c.fail = true := by
  cases refused with
  | unknown nobody => exact absurd known (nobody tenantId)
  | failing granted failing => exact ⟨_, _, granted, failing⟩
  | unreadable parsed found bad =>
    obtain ⟨_, _, row, parsed', found', verified, _⟩ := known
    cases parsed.symm.trans parsed'
    cases found.symm.trans found'
    rw [verifyApiKey, if_pos (by simp [bad])] at verified
    cases verified

/-- The rule for `authenticate`. -/
theorem ensures_authenticate {headers : HeaderMap} {P : World → Prop}
    {rest : Except AppError TenantContext → Program signature ε α} (now : P w)
    (stable : ∀ keyPrefix s t, E.rely (.sql (.findActiveApiKeyByPrefix keyPrefix)) s t → P s → P t)
    (reads : ∀ keyPrefix answer t, legal past ⟨.sql (.findActiveApiKeyByPrefix keyPrefix), answer⟩ t t)
    (ok : ∀ t later tenant, P t → t.db.store.authenticates lib headers tenant.tenantId → Looked past later →
      E.Ensures legal post (rest (.ok tenant)) t later)
    (error : ∀ t later fault, P t → Unauthenticated E headers t fault → Looked past later →
      E.Ensures legal post (rest (.error fault)) t later) :
    E.Ensures legal post ((authenticate lib headers).handle rest) w past := by
  unfold authenticate
  cases parsed : headers.apiKey with
  | none =>
    refine error w past _ now (.unknown ?_) (.inl rfl)
    rintro tenantId ⟨apiKey, keyPrefix, row, given, _⟩
    cases parsed.symm.trans given
  | some parts =>
    obtain ⟨apiKey, keyPrefix⟩ := parts
    refine ensures_select now (stable keyPrefix) (fun _ _ => rfl)
      (fun t c row still sound granted healthy answered => ?_)
      fun t c still sound granted failing =>
        ⟨reads _ _ t, error t _ _ still (.failing granted failing) (.inr ⟨keyPrefix, _, rfl⟩)⟩
    refine ⟨reads _ _ t, ?_⟩
    have found : t.db.store.findApiKey keyPrefix = row := Option.some.inj answered
    have only {tenantId : Uuid} (known : t.db.store.authenticates lib headers tenantId) :
        ∃ entry, row = some entry ∧ verifyApiKey lib apiKey entry.keyHash = .ok () := by
      obtain ⟨_, _, entry, given, stored, verified, _⟩ := known
      cases parsed.symm.trans given
      exact ⟨entry, found.symm.trans stored, verified⟩
    cases row with
    | none =>
      refine error t _ _ still (.unknown fun tenantId known => ?_) (.inr ⟨keyPrefix, _, rfl⟩)
      obtain ⟨entry, same, _⟩ := only known
      cases same
    | some row =>
      change E.Ensures legal post (((okOrError (verifyApiKey lib apiKey row.keyHash)).handle _).handle _) _ _
      cases verified : verifyApiKey lib apiKey row.keyHash with
      | ok done =>
        exact ok t _ ⟨row.tenantId⟩ still ⟨apiKey, keyPrefix, row, parsed, found, verified, rfl⟩
          (.inr ⟨keyPrefix, _, rfl⟩)
      | error fault =>
        refine error t _ fault still ?_ (.inr ⟨keyPrefix, _, rfl⟩)
        unfold verifyApiKey at verified
        split at verified
        · next bad =>
          cases verified
          exact .unreadable parsed found (by simpa using bad)
        · next readable =>
          split at verified
          · cases verified
          · next wrong =>
            cases verified
            refine .unknown fun tenantId known => ?_
            obtain ⟨entry, same, accepted⟩ := only known
            cases same
            rw [verifyApiKey, if_neg readable, if_neg wrong] at accepted
            cases accepted

/-- These statements were answered from the committed rows. -/
def Store.Answers (s : Store) (past : List (Performed signature)) : Prop :=
  ∀ what ∈ past, ∃ c statement row, what = ⟨.sql statement, .ok row⟩ ∧ s.select c statement = some row

/-- `authenticate`, with its statement answered from the committed rows, returns this tenant. -/
def Store.Admits (lib : Libraries) (s : Store) (headers : HeaderMap) (tenantId : Uuid) : Prop :=
  ∃ past, (authenticate lib headers).Follows past (.done (.ok ⟨tenantId⟩)) ∧ s.Answers past

theorem Store.admits_iff {s : Store} {headers : HeaderMap} {tenantId : Uuid} :
    s.Admits lib headers tenantId ↔ s.authenticates lib headers tenantId := by
  constructor
  · rintro ⟨past, follows, answers⟩
    unfold authenticate at follows
    cases parsed : headers.apiKey with
    | none =>
      rw [parsed] at follows
      cases follows.cases_done.2
    | some parts =>
      obtain ⟨apiKey, keyPrefix⟩ := parts
      rw [parsed] at follows
      rcases follows.cases_call with ⟨_, absurd⟩ | ⟨answer, later, rfl, rest⟩
      · cases absurd
      obtain ⟨c, statement, row, same, answered⟩ := answers _ List.mem_cons_self
      cases same
      have found : s.findApiKey keyPrefix = row := Option.some.inj answered
      cases row with
      | none => cases rest.cases_done.2
      | some row =>
        change ((okOrError (verifyApiKey lib apiKey row.keyHash)).handle _).Follows _ _ at rest
        cases verified : verifyApiKey lib apiKey row.keyHash with
        | error fault =>
          rw [verified] at rest
          cases rest.cases_done.2
        | ok done =>
          rw [verified] at rest
          cases rest.cases_done.2
          exact ⟨apiKey, keyPrefix, row, parsed, found, verified, rfl⟩
  · rintro ⟨apiKey, keyPrefix, row, parsed, found, verified, rfl⟩
    have goes (checked : Except AppError Unit) (same : verifyApiKey lib apiKey row.keyHash = checked) :
        (authenticate lib headers).Follows [⟨.sql (.findActiveApiKeyByPrefix keyPrefix), .ok (some row)⟩]
          (okOrError checked >>= fun _ => pure ⟨row.tenantId⟩) := by
      subst same
      unfold authenticate
      rw [parsed]
      exact @Program.Follows.step signature _ _ _ []
        (.sql (.findActiveApiKeyByPrefix keyPrefix)) _ .start (.ok (some row))
    refine ⟨_, goes _ verified, fun what member => ?_⟩
    obtain rfl := List.mem_singleton.mp member
    exact ⟨{}, _, _, rfl, congrArg some found⟩

/-- A thread goes on alone when the committed rows answer its statements. -/
theorem Store.Answers.exists_path {pool : Pool (platform lib config)} {i : ℕ} {task : Task}
    {owned : List SemaphoreRef} {program rest : Act Response}
    (present : pool.threads[i]? = some ⟨task, owned, program⟩) (follows : program.Follows past rest)
    (answers : pool.shared.db.store.Answers past) :
    ∃ more last, Path pool more last ∧ last.shared = pool.shared ∧ last.threads[i]? = some ⟨task, owned, rest⟩ := by
  induction follows with
  | start => exact ⟨[], pool, .nil pool, rfl, present⟩
  | @step past op next follows answer ih =>
    obtain ⟨more, last, path, same, waiting⟩ := ih fun what member => answers what (List.mem_append_left _ member)
    obtain ⟨c, statement, row, happened, answered⟩ := answers _ (List.mem_append_right _ (List.mem_singleton_self _))
    cases happened
    have healthy : last.shared.db.store.select { c with fail := false } statement = some row := by
      rw [same, ← answered]
      cases statement <;> rfl
    have ran : Op.exec config Task.executeRun { c with fail := false } (.sql statement) owned last.shared =
        some ⟨.ok row, owned, last.shared, none⟩ := by
      rw [Op.exec, execute_select rfl healthy]
      rfl
    exact ⟨_, _, path.snoc (.act waiting ran), same, Pool.advance_self waiting⟩

/-! ## Lasting facts -/

theorem Lasting.of_path {Q : Store → Prop} {events more : List (Event (platform lib config))}
    {pool last : Pool (platform lib config)} (lasting : Lasting Q) (path : Path (started lib config) events pool)
    (later : Path pool more last) (now : Q pool.shared.db.store) : Q last.shared.db.store := by
  induction later with
  | nil => exact now
  | snoc later step ih => exact lasting (evolves_of_started (path.append later) step) ih

theorem lasting_authenticates {headers : HeaderMap} {tenantId : Uuid} :
    Lasting fun s => s.authenticates lib headers tenantId :=
  fun _ _ evolves known => Store.authenticates_mono evolves.apiKeys known

/-! ## Among the others -/

/-- Every step of another thread lets the rows evolve, keeps `Q` and leaves the transaction alone that this thread
uses. -/
def among (lib : Libraries) (config : Config) (Q : Store → Prop) (grants : Op → Choice → World → Prop) :
    Surroundings (platform lib config) where
  sound w := Valid lib w
  rely op s t := s.db.store.Evolves t.db.store ∧ (Q s.db.store → Q t.db.store) ∧
    ∀ tx, op.Names (.transaction tx) → SameTransaction tx s.db t.db
  grants := grants

section Among

variable {events more : List (Event (platform lib config))} {pool next last : Pool (platform lib config)}
  {event : Event (platform lib config)} {i : ℕ}

/-- Whoever is about to use a transaction owns it, so nobody else changes it. -/
theorem sameTransaction_of_holds {task : Task} {owned : List SemaphoreRef} {op : Op} {rest : op.Answer → Act Response}
    {tx : Uuid} {claims : ℕ → Set Token} (holds : (ownership lib config).Holds events pool claims)
    (present : pool.threads[i]? = some ⟨task, owned, .call op rest⟩)
    (names : op.Names (.transaction tx)) (step : Step pool event next) (other : ¬ event.IsBy i) :
    SameTransaction tx pool.shared.db next.shared.db := by
  have bound := (List.getElem?_eq_some_iff.mp present).1
  have mine : Token.transaction tx ∈ claims i := by
    obtain ⟨c, effect, ran⟩ : ∃ c effect, op.exec config Task.executeRun c owned pool.shared = some effect := by
      cases op with
      | sql statement =>
        refine ⟨{ fail := true },
          ⟨.error .unavailable, owned, { pool.shared with db := pool.shared.db.lose statement }, none⟩, ?_⟩
        rw [Op.exec, execute_failing rfl]
        rfl
      | rollback handle => exact ⟨{}, _, rfl⟩
      | _ => exact names.elim
    obtain ⟨kept, permits⟩ := holds.permits present ran
    exact permits.named _ names
  cases step with
  | arrive accepted => exact .refl _ _
  | @act j task' owned' op' rest' c effect mover ran =>
    have different : i ≠ j := by
      rintro rfl
      exact other ⟨_, _, rfl⟩
    exact (holds.interferes bound different mover ran).same _ mine

theorem sameTransaction_of_step {task : Task} {owned : List SemaphoreRef} {op : Op} {rest : op.Answer → Act Response}
    {tx : Uuid} (path : Path (started lib config) events pool)
    (present : pool.threads[i]? = some ⟨task, owned, .call op rest⟩) (names : op.Names (.transaction tx))
    (step : Step pool event next) (other : ¬ event.IsBy i) : SameTransaction tx pool.shared.db next.shared.db := by
  obtain ⟨claims, holds⟩ := holds_of_started path
  exact sameTransaction_of_holds holds present names step other

/-- Nobody but its task writes a run. -/
theorem sameRun_of_step {tenantId runId : Uuid} {thread : Thread (platform lib config)}
    (path : Path (started lib config) events pool) (present : pool.threads[i]? = some thread)
    (task : thread.task = .executeRun tenantId runId) (step : Step pool event next) (other : ¬ event.IsBy i) :
    SameRun runId pool.shared.db next.shared.db := by
  obtain ⟨claims, holds⟩ := holds_of_started path
  have bound := (List.getElem?_eq_some_iff.mp present).1
  have mine := (holds.holding i thread present).1
  rw [task] at mine
  cases step with
  | arrive accepted => exact .refl _ _
  | @act j task' owned' op' rest' c effect mover ran =>
    have different : i ≠ j := by
      rintro rfl
      exact other ⟨_, _, rfl⟩
    exact (holds.interferes bound different mover ran).same _ mine

/-- The server surrounds its threads like this. -/
theorem around_of_started {Q : Store → Prop} {grants : Op → Choice → World → Prop}
    (path : Path (started lib config) events pool) (keep : OthersKeep i pool more fun w => Q w.db.store)
    (granted : ∀ before c what after middle next, more = before ++ .performed i c what :: after →
      Path pool before middle →
      Step middle (.performed i c what) next →
        grants what.op c middle.shared) : (among lib config Q grants).Around i pool more := by
  rintro before event after middle state rfl until_then step
  have earlier := path.append until_then
  refine ⟨valid_of_started earlier, ?_, fun task owned op rest present other =>
    ⟨evolves_of_started earlier step, ?_, ?_⟩⟩
  · rintro c what rfl
    exact granted before c what after middle state rfl until_then step
  · exact keep before event after middle state rfl until_then step other
  · exact fun tx names => sameTransaction_of_step earlier present names step other

end Among

end AgentPlatform
