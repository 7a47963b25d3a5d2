import AgentPlatform.Guarantees.Visibility
import AgentPlatform.Ownership.Surrounded
import AgentPlatform.Ownership.Usage

/-! # API keys

A key is made of two random draws and taken apart again when it comes back in a header. What is
stored of a key is its prefix and its hash, so every stored row belongs to one key that was handed
out, and the other way round.
-/

set_option autoImplicit false

namespace AgentPlatform

open Interleaving Relational Database Scenario

/-! ## Texts -/

theorem stripPrefix_append (leading text : String) : stripPrefix (leading ++ text) leading = some text := by
  rw [stripPrefix, if_pos (by simp), String.toList_append, List.drop_left, String.ofList_toList]

theorem eq_of_stripPrefix {text leading rest : String} (stripped : stripPrefix text leading = some rest) :
    text = leading ++ rest := by
  rw [stripPrefix, Option.ite_none_right_eq_some] at stripped
  obtain ⟨starts, same⟩ := stripped
  obtain ⟨tail, whole⟩ := List.isPrefixOf_iff_prefix.mp starts
  cases same
  apply String.toList_injective
  rw [String.toList_append, String.toList_ofList, ← whole, List.drop_left]

theorem splitOnce_append {front rest : String} {separator : Char} (clean : separator ∉ front.toList) :
    splitOnce (front ++ String.singleton separator ++ rest) separator = some (front, rest) := by
  have before : ∀ c ∈ front.toList, decide (c ≠ separator) = true := by
    intro c member
    simp only [decide_eq_true_eq]
    rintro rfl
    exact clean member
  have chars : (front ++ String.singleton separator ++ rest).toList = front.toList ++
    separator :: rest.toList := by simp
  rw [splitOnce, chars, List.dropWhile_append_of_pos before, List.takeWhile_append_of_pos before]
  simp

/-- The bytes of an ASCII text. -/
def HeaderValue.ofStr (text : String) : HeaderValue := text.toList.map fun c => UInt8.ofNat c.toNat

/-- The character may stand in a header that `to_str` reads. -/
def printable (c : Char) : Prop := 32 ≤ c.toNat ∧ c.toNat < 127

theorem byte_toNat {c : Char} (ascii : printable c) : (UInt8.ofNat c.toNat).toNat = c.toNat :=
  UInt8.toNat_ofNat_of_lt' (by have := ascii.2; change c.toNat < 256; omega)

theorem HeaderValue.toStr_ofStr {text : String} (ascii : ∀ c ∈ text.toList, printable c) :
    (HeaderValue.ofStr text).toStr = some text := by
  rw [HeaderValue.toStr, if_pos]
  · have back : (HeaderValue.ofStr text).map (fun byte => Char.ofNat byte.toNat) = text.toList := by
      rw [HeaderValue.ofStr, List.map_map]
      refine (List.map_congr_left fun c member => ?_).trans (List.map_id _)
      rw [Function.comp_apply, byte_toNat (ascii c member), Char.ofNat_toNat, id]
    rw [back, String.ofList_toList]
  · rw [HeaderValue.ofStr, List.all_map, List.all_eq_true]
    intro c member
    have value := byte_toNat (ascii c member)
    obtain ⟨low, high⟩ := ascii c member
    simp only [Function.comp_apply, Bool.or_eq_true, Bool.and_eq_true, decide_eq_true_eq]
    refine .inl ⟨UInt8.le_iff_toNat_le.mpr ?_, UInt8.lt_iff_toNat_lt.mpr ?_⟩
    · rw [value]; exact low
    · rw [value]; exact high

theorem HeaderValue.eq_ofStr {value : HeaderValue} {text : String} (read : value.toStr = some text) :
    value = HeaderValue.ofStr text := by
  rw [HeaderValue.toStr, Option.ite_none_right_eq_some] at read
  obtain ⟨ascii, same⟩ := read
  cases same
  rw [HeaderValue.ofStr, String.toList_ofList, List.map_map]
  refine ((List.map_congr_left fun byte member => ?_).trans (List.map_id value)).symm
  have small : byte.toNat < 0xd800 := by have := byte.toNat_lt; omega
  have back : (Char.ofNat byte.toNat).toNat = byte.toNat := by
    rw [Char.ofNat, dif_pos (.inl small)]
    rfl
  rw [Function.comp_apply, back, UInt8.ofNat_toNat, id]

private theorem alphanumeric_table : ∀ n < 123, isAlphanumeric (Char.ofNat n) = true →
    (32 ≤ (Char.ofNat n).toNat ∧ (Char.ofNat n).toNat < 127) ∧
      (32 ≤ (Char.ofNat n).toLower.toNat ∧ (Char.ofNat n).toLower.toNat < 127) ∧ (Char.ofNat n).toLower ≠ '_' := by
  decide

/-- Alphanumeric characters, lower-cased or not, may stand in a header and are not separators. -/
theorem printable_of_alphanumeric {c : Char} (alphanumeric : isAlphanumeric c = true) :
    printable c ∧ printable c.toLower ∧ c.toLower ≠ '_' := by
  have small : c.toNat < 123 := by
    simp only [isAlphanumeric, Bool.or_eq_true, Bool.and_eq_true, decide_eq_true_eq, Char.le_def,
      UInt32.le_iff_toNat_le] at alphanumeric
    have digits : '9'.val.toNat = 57 := rfl
    have lower : 'z'.val.toNat = 122 := rfl
    have upper : 'Z'.val.toNat = 90 := rfl
    change c.val.toNat < 123
    omega
  have table := alphanumeric_table c.toNat small
  rw [Char.ofNat_toNat] at table
  exact table alphanumeric

/-! ## Keys -/

/-- The key that is made of two draws. -/
def apiKeyOf (drawn secret : String) : String := "map_live_" ++ toLowercase drawn ++ "_" ++ secret

/-- The header that carries a key. -/
def bearer (apiKey : String) : HeaderValue := .ofStr ("Bearer " ++ apiKey)

/-- A text as `sample_iter` over `Alphanumeric` yields it. -/
def Alphanumeric (text : String) : Prop := ∀ c ∈ text.toList, isAlphanumeric c = true

section Parsing

variable {drawn secret : String}

/-- Extraction yields the stored prefix. -/
theorem extractKeyPrefix_apiKeyOf (alphanumeric : Alphanumeric drawn) :
    extractKeyPrefix (apiKeyOf drawn secret) = some (toLowercase drawn) := by
  have clean : '_' ∉ (toLowercase drawn).toList := by
    rw [toLowercase, String.toList_ofList]
    intro member
    obtain ⟨c, drawn, same⟩ := List.mem_map.mp member
    exact (printable_of_alphanumeric (alphanumeric c drawn)).2.2 same
  have parts : apiKeyOf drawn secret = "map_live_" ++ (toLowercase drawn ++ String.singleton '_' ++ secret) := by
    rw [apiKeyOf, String.append_assoc, String.append_assoc, String.append_assoc]
    rfl
  rw [parts, extractKeyPrefix, stripPrefix_append, Option.bind_eq_bind, Option.bind_some, splitOnce_append clean]
  rfl

theorem toStr_bearer (first : Alphanumeric drawn) (second : Alphanumeric secret) :
    (bearer (apiKeyOf drawn secret)).toStr = some ("Bearer " ++ apiKeyOf drawn secret) := by
  apply HeaderValue.toStr_ofStr
  intro c member
  simp only [apiKeyOf, toLowercase, String.toList_append, String.toList_ofList,
    List.mem_append, List.mem_map] at member
  have literal (text : String) (ascii : text.toList.all (fun c => decide (32 ≤ c.toNat ∧ c.toNat < 127)) = true)
      (inside : c ∈ text.toList) : printable c :=
    show 32 ≤ c.toNat ∧ c.toNat < 127 from of_decide_eq_true (List.all_eq_true.mp ascii c inside)
  rcases member with word | ((word | ⟨d, there, rfl⟩) | word) | there
  · exact literal _ (by decide) word
  · exact literal _ (by decide) word
  · exact (printable_of_alphanumeric (first d there)).2.1
  · exact literal _ (by decide) word
  · exact (printable_of_alphanumeric (second c there)).1

/-- A request that carries the key is looked up by the stored prefix. -/
theorem apiKey_bearer {headers : HeaderMap} (first : Alphanumeric drawn) (second : Alphanumeric secret)
    (sent : headers.authorization = some (bearer (apiKeyOf drawn secret))) :
    headers.apiKey = some (apiKeyOf drawn secret, toLowercase drawn) := by
  simp only [HeaderMap.apiKey, bind, pure, sent, Option.bind_some, toStr_bearer first second, stripPrefix_append,
    extractKeyPrefix_apiKeyOf first]

/-- A header with a key is made of that key. -/
theorem eq_bearer {headers : HeaderMap} {apiKey keyPrefix : String}
    (parsed : headers.apiKey = some (apiKey, keyPrefix)) : headers.authorization = some (bearer apiKey) := by
  simp only [HeaderMap.apiKey, bind, Option.bind_eq_some_iff] at parsed
  obtain ⟨value, sent, text, read, key, stripped, found, _, same⟩ := parsed
  cases same
  rw [sent, HeaderValue.eq_ofStr read, eq_of_stripPrefix stripped]
  rfl

end Parsing

/-! ## Issued keys -/

variable {lib : Libraries} {config : Config} {tenantId : Uuid}

/-- The statement that stores a key. -/
def Op.StoresKey (op : Op) : Prop := ∃ owner keyPrefix keyHash, op = .sql (.createApiKey owner keyPrefix keyHash)

/-- What `create_api_key` has done when it hands out a key. -/
structure Issued (lib : Libraries) (tenantId : Uuid) (drawn secret keyHash : String)
    (past : List (Performed signature)) : Prop where
  hashed : ∃ salt, lib.hashPassword salt (apiKeyOf drawn secret) = some keyHash
  first : ⟨.sampleAlphanumeric 12, drawn⟩ ∈ past
  second : ⟨.sampleAlphanumeric 32, secret⟩ ∈ past
  stored : ⟨.sql (.createApiKey tenantId (toLowercase drawn) keyHash), .ok ()⟩ ∈ past
  only : ∀ what ∈ past, ∀ owner keyPrefix hash, what = ⟨.sql (.createApiKey owner keyPrefix hash), .ok ()⟩ →
    owner = tenantId ∧ keyPrefix = toLowercase drawn ∧ hash = keyHash

/-- Nothing that was done has stored a key. -/
def Keyless (past : List (Performed signature)) : Prop :=
  ∀ what ∈ past, ∀ owner keyPrefix keyHash, what ≠ ⟨.sql (.createApiKey owner keyPrefix keyHash), .ok ()⟩

/-- The request has handed out a key, or has stored one. -/
def Over (past : List (Performed signature)) (rest : Act Response) : Prop :=
  (∃ response, rest = .done (.ok response)) ∨
    ∃ owner keyPrefix keyHash, ⟨.sql (.createApiKey owner keyPrefix keyHash), .ok ()⟩ ∈ past

theorem Keyless.not_over {past : List (Performed signature)} {rest : Act Response} (keyless : Keyless past)
    (unfinished : ∀ response, rest ≠ .done (.ok response)) : ¬ Over past rest := by
  rintro (⟨response, same⟩ | ⟨owner, keyPrefix, keyHash, member⟩)
  · exact unfinished response same
  · exact keyless _ member owner keyPrefix keyHash rfl

theorem Keyless.cons {past : List (Performed signature)} {what : Performed signature} (keyless : Keyless past)
    (other : ∀ owner keyPrefix keyHash, what ≠ ⟨.sql (.createApiKey owner keyPrefix keyHash), .ok ()⟩) :
    Keyless (what :: past) := by
  intro done member
  rcases List.mem_cons.mp member with rfl | later
  · exact other
  · exact keyless done later

theorem keyless_nil : Keyless [] := by
  intro done member
  cases member

/-- A key is handed out exactly if it has been stored. -/
theorem follows_createApiKey {past : List (Performed signature)} {rest : Act Response}
    (follows : (Http.createApiKey lib tenantId).Follows past rest) (ended : Over past rest) :
    ∃ drawn secret keyHash, Issued lib tenantId drawn secret keyHash past ∧
      rest = .done (.ok (.apiKey (apiKeyOf drawn secret) "This key is shown only once. Store it securely.")) := by
  rcases follows.cases_call with ⟨rfl, rfl⟩ | ⟨drawn, later, rfl, second⟩
  · exact absurd ended (keyless_nil.not_over (by rintro _ ⟨⟩))
  rcases second.cases_call with ⟨rfl, rfl⟩ | ⟨secret, later, rfl, third⟩
  · exact absurd ended ((keyless_nil.cons (by rintro _ _ _ ⟨⟩)).not_over (by rintro _ ⟨⟩))
  rcases third.cases_call with ⟨rfl, rfl⟩ | ⟨salt, later, rfl, fourth⟩
  · exact absurd ended (((keyless_nil.cons (by rintro _ _ _ ⟨⟩)).cons (by rintro _ _ _ ⟨⟩)).not_over (by rintro _ ⟨⟩))
  have drawing {later : List (Performed signature)} (keyless : Keyless later) :
      Keyless (⟨.sampleAlphanumeric 12, drawn⟩ :: ⟨.sampleAlphanumeric 32,
          secret⟩ :: ⟨.generateSalt, salt⟩ :: later) :=
    ((keyless.cons (by rintro _ _ _ ⟨⟩)).cons (by rintro _ _ _ ⟨⟩)).cons (by rintro _ _ _ ⟨⟩)
  change ((okOr (lib.hashPassword salt (apiKeyOf drawn secret)) (AppError.internal "failed to hash api key") >>= _ :
    Act _).handle _).Follows later rest at fourth
  cases hashed : lib.hashPassword salt (apiKeyOf drawn secret) with
  | none =>
    rw [hashed] at fourth
    obtain ⟨rfl, rfl⟩ := fourth.cases_done
    exact absurd ended ((drawing keyless_nil).not_over (by rintro _ ⟨⟩))
  | some keyHash =>
    rw [hashed] at fourth
    rcases fourth.cases_call with ⟨rfl, rfl⟩ | ⟨answer, later, rfl, last⟩
    · exact absurd ended ((drawing keyless_nil).not_over (by rintro _ ⟨⟩))
    cases answer with
    | error fault =>
      obtain ⟨rfl, rfl⟩ := last.cases_done
      exact absurd ended ((drawing (keyless_nil.cons (by rintro _ _ _ ⟨⟩))).not_over (by rintro _ ⟨⟩))
    | ok done =>
      obtain ⟨rfl, rfl⟩ := last.cases_done
      refine ⟨drawn, secret, keyHash, ⟨⟨salt, hashed⟩, by simp, by simp, by simp, ?_⟩, rfl⟩
      rintro what member owner keyPrefix hash rfl
      simp only [List.mem_cons, List.not_mem_nil, or_false] at member
      rcases member with absurd | absurd | absurd | same
      · cases absurd
      · cases absurd
      · cases absurd
      · cases same
        exact ⟨rfl, rfl, rfl⟩

theorem Op.Handled.not_storesKey {op : Op} (handled : op.Handled tenantId) : ¬ op.StoresKey := by
  rintro ⟨owner, keyPrefix, keyHash, rfl⟩
  cases handled.1

theorem uses_createTenant_keyless (body : CreateTenantRequest) :
    (Http.createTenant body).Uses fun op : Op => ¬ op.StoresKey := by
  refine Program.uses_ite True.intro
    (Program.uses_bind (Program.uses_bind (uses_query ?_) fun _ => True.intro) fun _ => True.intro)
  rintro ⟨owner, keyPrefix, keyHash, absurd⟩
  cases absurd

/-- Only `create_api_key` stores keys. -/
theorem uses_body_keyless {task : Task} (other : ∀ owner, task ≠ .http (.createApiKey owner)) :
    (task.body lib).Uses fun op : Op => ¬ op.StoresKey := by
  cases task with
  | executeRun tenantId runId =>
    apply uses_task.mono
    rintro op (inRun | ⟨semaphore, rfl⟩)
    · rintro ⟨owner, keyPrefix, keyHash, rfl⟩
      cases inRun
    · rintro ⟨owner, keyPrefix, keyHash, absurd⟩
      cases absurd
  | http request =>
    have onBehalf {headers : HeaderMap} (sent : request.headers? = some headers) : (do
        let tenant ← authenticate lib headers
        request.onBehalf lib tenant : Act Response).Uses fun op : Op => ¬ op.StoresKey := by
      refine Program.uses_bind (uses_authenticate fun keyPrefix => ?_) fun tenant =>
        (uses_onBehalf sent tenant).mono fun _ => Op.Handled.not_storesKey
      rintro ⟨owner, _, keyHash, absurd⟩
      cases absurd
    cases request with
    | createTenant body => exact uses_createTenant_keyless body
    | createApiKey owner => exact absurd rfl (other owner)
    | _ => exact onBehalf rfl

section Histories

variable {events : List (Event (platform lib config))} {pool : Pool (platform lib config)} {i : ℕ}

/-- The key was handed out to this tenant. -/
def HandedOut (pool : Pool (platform lib config)) (tenantId : Uuid) (apiKey : String) : Prop :=
  ∃ i warning, pool.Returned i (.http (.createApiKey tenantId)) (.ok (.apiKey apiKey warning))

/-- Random draws are alphanumeric. -/
theorem alphanumeric_of_performed {count : ℕ} {text : String} (path : Path (started lib config) events pool)
    (drawn : ⟨.sampleAlphanumeric count, text⟩ ∈ doneBy i events) : Alphanumeric text := by
  obtain ⟨c, member⟩ := mem_doneBy.mp drawn
  obtain ⟨before, after, rfl⟩ := List.append_of_mem member
  obtain ⟨middle, next, _, step, _⟩ := path.cut
  generalize happened : (⟨.sampleAlphanumeric count, text⟩ : Performed signature) = what at step
  cases step with
  | act present ran =>
    cases happened
    simp only [Op.exec, Option.ite_none_right_eq_some] at ran
    obtain ⟨⟨_, fine⟩, same⟩ := ran
    cases same
    intro c member
    exact List.all_eq_true.mp fine c (by simpa [answering] using member)

/-- What is known of a key that was stored: how it was made, and that it was handed out. -/
structure Made (pool : Pool (platform lib config)) (tenantId : Uuid) (drawn secret keyHash : String) : Prop where
  first : Alphanumeric drawn
  second : Alphanumeric secret
  hashed : ∃ salt, lib.hashPassword salt (apiKeyOf drawn secret) = some keyHash
  handed : HandedOut pool tenantId (apiKeyOf drawn secret)

theorem made_of_stored {c : Choice} {keyPrefix keyHash : String} (path : Path (started lib config) events pool)
    (stored : .performed i c ⟨.sql (.createApiKey tenantId keyPrefix keyHash), .ok ()⟩ ∈ events) :
    ∃ drawn secret, keyPrefix = toLowercase drawn ∧ Made pool tenantId drawn secret keyHash := by
  obtain ⟨⟨task, owned, program⟩, present, done, follows⟩ := path.thread_of_performed rfl stored
  obtain ⟨owner, rfl⟩ : ∃ owner, task = .http (.createApiKey owner) := by
    by_contra other
    exact (follows.uses (uses_body_keyless fun owner same => other ⟨owner, same⟩)).1 _ done ⟨_, _, _, rfl⟩
  obtain ⟨drawn, secret, hash, issued, rfl⟩ := follows_createApiKey follows (.inr ⟨_, _, _, done⟩)
  obtain ⟨rfl, rfl, rfl⟩ := issued.only _ done _ _ _ rfl
  exact ⟨drawn, secret, rfl, alphanumeric_of_performed path issued.first,
    alphanumeric_of_performed path issued.second, issued.hashed, i, _, owned, present⟩

theorem stored_of_handedOut {apiKey : String} (path : Path (started lib config) events pool)
    (handed : HandedOut pool tenantId apiKey) : ∃ i c drawn secret keyHash, apiKey = apiKeyOf drawn secret ∧
      .performed i c ⟨.sql (.createApiKey tenantId (toLowercase drawn) keyHash), .ok ()⟩ ∈ events ∧
      Made pool tenantId drawn secret keyHash := by
  obtain ⟨i, warning, owned, present⟩ := handed
  have follows := (path.follows rfl).1 i _ present
  obtain ⟨drawn, secret, keyHash, issued, same⟩ := follows_createApiKey follows (.inl ⟨_, rfl⟩)
  cases same
  obtain ⟨c, stored⟩ := mem_doneBy.mp issued.stored
  exact ⟨i, c, drawn, secret, keyHash, rfl, stored, alphanumeric_of_performed path issued.first,
    alphanumeric_of_performed path issued.second, issued.hashed, i, _, owned, present⟩

/-- The statement adds the key that it stores, and no other statement adds keys. -/
theorem apiKeys_executed {c : Choice} {db db' : Database} {statement : Statement}
    {answer : Except SqlxError statement.Row} (ran : Executed c db statement answer db') :
    db'.store.apiKeys = db.store.apiKeys ∨
      ∃ owner keyPrefix keyHash, (⟨statement, answer⟩ : (s : Statement) × Except SqlxError s.Row) =
          ⟨.createApiKey owner keyPrefix keyHash, .ok ()⟩ ∧
        db'.store.apiKeys = db.store.apiKeys ++ [⟨c.id, owner, keyPrefix, keyHash, c.now, none⟩] := by
  cases ran with
  | unavailable failing => rw [lose_store]; exact .inl rfl
  | createApiKey new tenant => exact .inr ⟨_, _, _, rfl, rfl⟩
  | _ => exact .inl rfl

/-- Every row was stored by its statement. -/
theorem stored_of_row {row : ApiKeyRow} (path : Path (started lib config) events pool)
    (present : row ∈ pool.shared.db.store.apiKeys) :
    ∃ i c, .performed i c ⟨.sql (.createApiKey row.tenantId row.keyPrefix row.keyHash), .ok ()⟩ ∈ events := by
  induction path with
  | nil => simp [started, World.new] at present
  | @snoc middle last events event path step ih =>
    have earlier (old : row ∈ middle.shared.db.store.apiKeys) : ∃ i c,
        .performed i c ⟨.sql (.createApiKey row.tenantId row.keyPrefix row.keyHash), .ok ()⟩ ∈ events ++ [event] := by
      obtain ⟨i, c, member⟩ := ih old
      exact ⟨i, c, List.mem_append_left _ member⟩
    rcases store_of_step step with same | ⟨i, c, statement, answer, rfl, ran⟩
    · exact earlier (same ▸ present)
    rcases apiKeys_executed ran with same | ⟨owner, keyPrefix, keyHash, happened, grown⟩
    · exact earlier (same ▸ present)
    · rw [grown] at present
      rcases List.mem_append.mp present with old | new
      · exact earlier old
      · cases happened
        obtain rfl := List.mem_singleton.mp new
        exact ⟨i, c, List.mem_append_right _ (List.mem_singleton_self _)⟩

/-- Every statement that stores a key leaves a row. -/
theorem row_of_stored {c : Choice} {keyPrefix keyHash : String} (path : Path (started lib config) events pool)
    (stored : .performed i c ⟨.sql (.createApiKey tenantId keyPrefix keyHash), .ok ()⟩ ∈ events) :
    ∃ row ∈ pool.shared.db.store.apiKeys, row.tenantId = tenantId ∧
      row.keyPrefix = keyPrefix ∧ row.keyHash = keyHash := by
  refine path.since (fun pool => ∃ row ∈ pool.shared.db.store.apiKeys,
    row.tenantId = tenantId ∧ row.keyPrefix = keyPrefix ∧ row.keyHash = keyHash) ?_ ?_ stored rfl
  · rintro _ middle event next _ step rfl
    have ran := executed (execute_of_step step)
    generalize next.shared.db = db at ran
    generalize same : Except.ok () = answer at ran
    cases ran with
    | createApiKey new tenant => exact ⟨_, List.mem_append_right _ (List.mem_singleton_self _), rfl, rfl, rfl⟩
    | select healthy answered => cases answered
    | _ => cases same
  · rintro _ middle event next before step ⟨row, present, same⟩
    exact ⟨row, (evolves_of_started before step).apiKeys.subset present, same⟩

end Histories

/-! ## Tenants and their keys -/

/-- A hash parses and verifies the string that was hashed, and no other. -/
structure Libraries.HashesExactly (lib : Libraries) : Prop where
  parses : ∀ salt password hash, lib.hashPassword salt password = some hash → lib.parsesHash hash = true
  verifies : ∀ salt password hash, lib.hashPassword salt password = some hash →
    ∀ other, lib.verifyPassword other hash = true ↔ other = password

section Identity

variable {events : List (Event (platform lib config))} {pool : Pool (platform lib config)}

theorem verifyApiKey_iff {salt password hash apiKey : String} (hashes : lib.HashesExactly)
    (hashed : lib.hashPassword salt password = some hash) : verifyApiKey lib apiKey hash = .ok () ↔
      apiKey = password := by
  rw [verifyApiKey, if_neg (by simp [hashes.parses _ _ _ hashed]), ← hashes.verifies _ _ _ hashed apiKey]
  split
  · next accepted => exact iff_of_true rfl accepted
  · next refused => exact iff_of_false (by rintro ⟨⟩) refused

/-- The row of a prefix is the only one. -/
theorem findApiKey_of_mem {row : ApiKeyRow} {w : World} (valid : Valid lib w) (present : row ∈ w.db.store.apiKeys) :
    w.db.store.findApiKey row.keyPrefix = some row := by
  have accounts := valid.wellFormed.accounts
  cases found : w.db.store.findApiKey row.keyPrefix with
  | none =>
    have missing := List.find?_eq_none.mp found row present
    simp [accounts.active row present] at missing
  | some other =>
    have same := List.find?_some found
    simp only [Bool.and_eq_true, beq_iff_eq] at same
    rw [accounts.prefixes.eq (List.mem_of_find?_eq_some found) present (congrArg some same.1) rfl]

/-- A key that was handed out logs its tenant in. -/
theorem authenticates_of_handedOut {apiKey : String} {headers : HeaderMap} (hashes : lib.HashesExactly)
    (path : Path (started lib config) events pool) (handed : HandedOut pool tenantId apiKey)
    (sent : headers.authorization = some (bearer apiKey)) :
    pool.shared.db.store.authenticates lib headers tenantId := by
  obtain ⟨i, c, drawn, secret, keyHash, rfl, stored, made⟩ := stored_of_handedOut path handed
  obtain ⟨row, present, owner, keyPrefix, hash⟩ := row_of_stored path stored
  obtain ⟨salt, hashed⟩ := made.hashed
  refine ⟨_, _, row, apiKey_bearer made.first made.second sent, ?_, ?_, owner⟩
  · rw [← keyPrefix]
    exact findApiKey_of_mem (valid_of_started path) present
  · rw [hash]
    exact (verifyApiKey_iff hashes hashed).mpr rfl

/-- A header that logs a tenant in carries a key that was handed out to it. -/
theorem handedOut_of_authenticates {headers : HeaderMap} (hashes : lib.HashesExactly)
    (path : Path (started lib config) events pool) (known : pool.shared.db.store.authenticates lib headers tenantId) :
    ∃ apiKey, HandedOut pool tenantId apiKey ∧ headers.authorization = some (bearer apiKey) := by
  obtain ⟨apiKey, keyPrefix, row, parsed, found, verified, rfl⟩ := known
  obtain ⟨i, c, stored⟩ := stored_of_row path (List.mem_of_find?_eq_some found)
  obtain ⟨drawn, secret, _, made⟩ := made_of_stored path stored
  obtain ⟨salt, hashed⟩ := made.hashed
  obtain rfl := (verifyApiKey_iff hashes hashed).mp verified
  exact ⟨_, made.handed, eq_bearer parsed⟩

/-- Every key that was handed out to a tenant identifies this tenant ever since, and a header that identifies
a tenant carries a key that was handed out to it. -/
theorem keys_identify (hashes : lib.HashesExactly) (path : Path (started lib config) events pool) :
    (∀ tenantId apiKey headers more last, HandedOut pool tenantId apiKey → Path pool more last →
      headers.authorization = some (bearer apiKey) →
        ∀ other, last.shared.db.store.Admits lib headers other ↔ other = tenantId) ∧
    ∀ headers tenantId, pool.shared.db.store.Admits lib headers tenantId →
      ∃ apiKey, HandedOut pool tenantId apiKey ∧ headers.authorization = some (bearer apiKey) := by
  refine ⟨fun tenantId apiKey headers more last handed later sent other => ?_, fun headers tenantId admitted => ?_⟩
  · obtain ⟨i, warning, returned⟩ := handed
    have known := authenticates_of_handedOut hashes (path.append later) ⟨i, warning, later.returned returned⟩ sent
    rw [Store.admits_iff]
    constructor
    · exact fun same => Store.authenticates_unique same known
    · rintro rfl
      exact known
  · exact handedOut_of_authenticates hashes path (Store.admits_iff.mp admitted)

end Identity

namespace Scenario

theorem permissive_hashesExactly : permissive.HashesExactly where
  parses _ _ _ _ := rfl
  verifies := by
    rintro _ password _ ⟨⟩ other
    simp [permissive]

end Scenario

/-- The key that a tenant was given identifies it. -/
theorem keys_identify_served : ∃ events pool, Path (started permissive ⟨1, 1⟩) events pool ∧
    ∃ apiKey, HandedOut pool 1 apiKey ∧ headers.authorization = some (bearer apiKey) ∧
      pool.shared.db.store.Admits permissive headers 1 := by
  obtain ⟨events, pool, path, known⟩ := (started permissive ⟨1, 1⟩).exists_path onboarding
    (fun _ pool => identifies headers 1 pool.shared.db.store) (by decide +kernel)
  have admitted := Store.admits_iff.mpr (of_identifies known)
  obtain ⟨apiKey, handed, sent⟩ := (keys_identify permissive_hashesExactly path).2 headers 1 admitted
  have still := (keys_identify permissive_hashesExactly path).1 1 apiKey headers [] pool handed (.nil pool) sent
  exact ⟨events, pool, path, apiKey, handed, sent, (still 1).mpr rfl⟩

end AgentPlatform
