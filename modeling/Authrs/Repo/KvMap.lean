import Authrs.Interaction.Condition
import Authrs.Repo.KvStore

/-!
# The configuration as a map

The configuration is a map from keys to values. The calls of the repository run side by side, and each
of them sends one statement about the table, where it takes effect: a call answers as the map does that
the writes and deletes before its statement have left. Sensitive values are decrypted on the way out, so
the encryption does not show.

## Main definitions

* `KvMap`, `Db.kvMap`: maps of values, and the one that a table stands for
* `KvCall`, `KvCall.run`: the calls
* `KvCall.effect`, `mapAfter`: what a call's statement does to the map, and all statements of a record
* `KvCall.Answers`: what the map answers
* `StoresMap`: the table is the map, and the calls answer as the map does

## Main results

* `KvDeployment.decrypt_encrypt`: what is encrypted is decrypted
* `run_storesMap`: the repository stores a map
-/

namespace Authrs

open Interaction Relational

/-- A value, or why it cannot be read, and whether it is sensitive. -/
structure KvEntry where
  value : Except AppError Json
  sensitive : Bool

/-- The keys: a tenant, a group and a key of the group. -/
abbrev KvKey : Type := String × String × String

/-- **A configuration**: what there is under each key. -/
abbrev KvMap : Type := KvKey → Option KvEntry

/-- The configuration that a table stands for. -/
def Db.kvMap (w : World) (db : Db) : KvMap := fun k =>
  (db.kv k.1 k.2.1 k.2.2).map fun r => ⟨r.decode w, r.sensitive⟩

/-- A call of the repository. -/
inductive KvCall
  | get (tenantId groupKey key : String)
  | set (tenantId groupKey key : String) (value : Json) (sensitive : Bool)
  | delete (tenantId groupKey key : String)
  | list (tenantId : String) (groupKeyFilter keyFilter : Option String)

/-- What a call returns. -/
inductive KvAnswer
  | value (v : Option Json)
  | done
  | deleted (b : Bool)
  | keys (l : List (String × String × Bool))

/-- **The call.** -/
def KvCall.run (d : KvDeployment) : KvCall → KvProgram KvAnswer
  | get tenantId groupKey key => do
    let v ← KvStoreRepo.get d tenantId groupKey key
    pure (.value v)
  | set tenantId groupKey key value sensitive => do
    KvStoreRepo.set d tenantId groupKey key value sensitive
    pure .done
  | delete tenantId groupKey key => do
    let b ← KvStoreRepo.delete tenantId groupKey key
    pure (.deleted b)
  | list tenantId groupKeyFilter keyFilter => do
    let l ← KvStoreRepo.list tenantId groupKeyFilter keyFilter
    pure (.keys l)

/-- The key under which a value is stored: its parts as they fit the columns. -/
def storedKey (tenantId groupKey key : String) : Option KvKey := do
  let t ← varchar 255 tenantId
  let g ← varchar 255 groupKey
  let k ← varchar 255 key
  pure (t, g, k)

/-- **What a written value is read as**: its JSON text, parsed. -/
def KvDeployment.readBack (d : KvDeployment) (value : Json) : Except AppError Json := do
  let text ← (d.render value).mapError AppError.internal
  (d.world.parseJson text).mapError fun e => .internal ("Invalid JSON in kv_store: " ++ e)

/-- **What an exchange of a call does to the map**: a write that succeeds puts under the key what the
value is read as, a delete removes it, and everything else leaves the map alone. -/
def KvCall.effect (d : KvDeployment) (c : KvCall) (e : Event kvSteps) (m : KvMap) : KvMap :=
  match c, e with
  | .set tenantId groupKey key value sensitive, ⟨.upsert .., .ok ()⟩ =>
    match storedKey tenantId groupKey key with
    | some k => Function.update m k (some ⟨d.readBack value, sensitive⟩)
    | none => m
  | .delete tenantId groupKey key, ⟨.delete .., .ok _⟩ =>
    Function.update m (tenantId, groupKey, key) none
  | _, _ => m

/-- **What the map answers** to a call. -/
inductive KvCall.Answers (m : KvMap) : KvCall → KvAnswer → Prop
  | get {tenantId groupKey key : String} {v : Option Json} :
    (m (tenantId, groupKey, key)).map KvEntry.value = v.map .ok →
    Answers m (.get tenantId groupKey key) (.value v)
  | set {tenantId groupKey key : String} {value : Json} {sensitive : Bool} {k : KvKey} :
    storedKey tenantId groupKey key = some k →
    Answers m (.set tenantId groupKey key value sensitive) .done
  | delete {tenantId groupKey key : String} :
    Answers m (.delete tenantId groupKey key) (.deleted (m (tenantId, groupKey, key)).isSome)
  | list {tenantId : String} {groupKey key : Option String} {l : List (String × String × Bool)} :
    (l.map fun x => (x.1, x.2.1)).Nodup →
    (∀ g k b, (g, k, b) ∈ l ↔ (∃ v, m (tenantId, g, k) = some ⟨v, b⟩) ∧
      ∀ g' ∈ groupKey, g = g' ∧ ∀ k' ∈ key, k = k') →
    Answers m (.list tenantId groupKey key) (.keys l)

/-- **What is encrypted is decrypted.** -/
theorem KvDeployment.decrypt_encrypt (d : KvDeployment) (hA : d.aead.Lawful) {n : Nat}
    {plain text : String} (h : d.world.encrypt n plain = .ok text) :
    d.world.decrypt text = .ok plain :=
  SecretCipher.decrypt_of_encrypt hA h

/-! ### What a call does -/

/-- **A step of a call**: a write of a sensitive value draws a nonce first, and then every call sends its
one statement. -/
inductive KvStep (d : KvDeployment) : KvCall → List (Event kvSteps) → Event kvSteps → Prop
  | select {tenantId groupKey key : String} {e : Event kvSteps} :
    e.request = .select tenantId groupKey key → KvStep d (.get tenantId groupKey key) [] e
  | encrypt {tenantId groupKey key : String} {value : Json} {text : String} {e : Event kvSteps} :
    d.render value = .ok text → e.request = .encrypt text →
    KvStep d (.set tenantId groupKey key value true) [] e
  | upsertSecret {tenantId groupKey key : String} {value : Json} {text stored : String}
    {e : Event kvSteps} : d.render value = .ok text →
    e.request = .upsert tenantId groupKey key stored true →
    KvStep d (.set tenantId groupKey key value true) [⟨KvRequest.encrypt text, .ok stored⟩] e
  | upsertPlain {tenantId groupKey key : String} {value : Json} {text : String} {e : Event kvSteps} :
    d.render value = .ok text → e.request = .upsert tenantId groupKey key text false →
    KvStep d (.set tenantId groupKey key value false) [] e
  | delete {tenantId groupKey key : String} {e : Event kvSteps} :
    e.request = .delete tenantId groupKey key → KvStep d (.delete tenantId groupKey key) [] e
  | selectAll {tenantId : String} {groupKey key : Option String} {e : Event kvSteps} :
    e.request = .selectAll tenantId groupKey key → KvStep d (.list tenantId groupKey key) [] e

/-- **What a call has done when it returns**: its last exchange is its statement. -/
inductive KvDone (d : KvDeployment) : KvCall → List (Event kvSteps) → KvAnswer → Prop
  | get {tenantId groupKey key : String} {row : Option KvStoreRow} {v : Option Json} :
    decodeKv d.world row = .ok v →
    KvDone d (.get tenantId groupKey key) [⟨KvRequest.select tenantId groupKey key, .ok row⟩] (.value v)
  | set {tenantId groupKey key : String} {value : Json} {sensitive : Bool} {stored : String}
    {h : List (Event kvSteps)} : (∀ e ∈ h, ∃ plain, e.request = .encrypt plain) →
    KvDone d (.set tenantId groupKey key value sensitive)
      (⟨KvRequest.upsert tenantId groupKey key stored sensitive, .ok ()⟩ :: h) .done
  | delete {tenantId groupKey key : String} {n : Nat} :
    KvDone d (.delete tenantId groupKey key) [⟨KvRequest.delete tenantId groupKey key, .ok n⟩]
      (.deleted (0 < n))
  | list {tenantId : String} {groupKey key : Option String} {rows : List KvStoreRow} :
    KvDone d (.list tenantId groupKey key) [⟨KvRequest.selectAll tenantId groupKey key, .ok rows⟩]
      (.keys (rows.map fun r => (r.groupKey, r.key, r.sensitive)))

/-- What a call has done when it ends; nothing is said of one that fails. -/
def KvCall.Ended (d : KvDeployment) (c : KvCall) (h : List (Event kvSteps)) :
    Except AppError KvAnswer → Prop
  | .ok a => KvDone d c h a
  | .error _ => True

/-- **Every call goes through its steps**, and ends with its statement. -/
theorem KvCall.run_keeps (d : KvDeployment) (c : KvCall) :
    (c.run d).Keeps (.ofGuarantee (KvStep d c)) (c.Ended d) [] := by
  cases c with
  | get tenantId groupKey key =>
    intro reply _
    refine ⟨.select rfl, ?_⟩
    cases reply with
    | error e => trivial
    | ok row =>
      change ((Program.ofExcept (decodeKv d.world row)).bind _).Keeps _ _ _
      cases hvalue : decodeKv d.world row with
      | error e => trivial
      | ok v => exact .get hvalue
  | set tenantId groupKey key value sensitive =>
    change (((Program.ofExcept ((d.render value).mapError AppError.internal)).bind _).bind _).Keeps _ _ _
    cases htext : d.render value with
    | error e => trivial
    | ok text =>
      -- A sensitive value is encrypted before it is written.
      cases sensitive with
      | false =>
        intro reply _
        refine ⟨.upsertPlain htext rfl, ?_⟩
        cases reply with
        | error e => trivial
        | ok u => exact .set (by simp)
      | true =>
        intro reply _
        refine ⟨.encrypt htext rfl, ?_⟩
        cases reply with
        | error e => trivial
        | ok stored =>
          intro reply _
          refine ⟨.upsertSecret htext rfl, ?_⟩
          cases reply with
          | error e => trivial
          | ok u => exact .set (by simp)
  | delete tenantId groupKey key =>
    intro reply _
    refine ⟨.delete rfl, ?_⟩
    cases reply with
    | error e => trivial
    | ok n => exact .delete
  | list tenantId groupKey key =>
    intro reply _
    refine ⟨.selectAll rfl, ?_⟩
    cases reply with
    | error e => trivial
    | ok rows => exact .list

/-! ### Runs -/

section Runs

variable {ι : Type}

/-- What goes on besides the calls: it leaves the configuration alone. -/
structure KvElsewhere where
  act : KvState → KvState
  keeps : ∀ s, (act s).db.kvStore = s.db.kvStore

/-- **The configuration after a record**: what its moves have made of the one at the start. -/
def mapAfter (d : KvDeployment) (call : ι → KvCall) (start : KvMap)
    (log : List (Move kvSteps ι KvState)) : KvMap :=
  log.foldr (fun m => (call m.who).effect d m.event) start

@[simp] theorem mapAfter_cons (d : KvDeployment) (call : ι → KvCall) (start : KvMap)
    (m : Move kvSteps ι KvState) (log : List (Move kvSteps ι KvState)) :
    mapAfter d call start (m :: log) = (call m.who).effect d m.event (mapAfter d call start log) :=
  rfl

variable [DecidableEq ι]

/-- The calls, side by side. -/
abbrev kvRun (d : KvDeployment) (s : KvState) (call : ι → KvCall) (l : List (ι ⊕ KvElsewhere)) :
    Config kvSteps AppError KvAnswer ι KvState :=
  (Config.start s fun i => (call i).run d).run (handleKv d) KvElsewhere.act l

/-- **The repository stores a map.** The table stands for the map that the statements of the record have
left; a call that returns has sent one statement, its last request, and returns what the map answered
then; and what is stored of a sensitive value is an encryption. -/
structure StoresMap (d : KvDeployment) (s : KvState) (call : ι → KvCall)
    (c : Config kvSteps AppError KvAnswer ι KvState) : Prop where
  table : c.state.db.kvMap d.world = mapAfter d call (s.db.kvMap d.world) c.log
  answers : ∀ i a, c.threads i = .pure a → ∃ newer m older, c.log = newer ++ m :: older ∧ m.who = i ∧
    own i newer = [] ∧ (∀ e ∈ own i older, ∃ plain, e.request = KvRequest.encrypt plain) ∧
    (call i).Answers (mapAfter d call (s.db.kvMap d.world) older) a
  secrets : ∀ t g k r, c.state.db.kv t g k = some r → s.db.kv t g k = some r ∨
    (r.sensitive = true → ∃ n plain, d.world.encrypt n plain = .ok r.value)

variable {d : KvDeployment} {s : KvState} {call : ι → KvCall}

/-- The replies of a record are those of the requests. -/
def KvReplied (d : KvDeployment) (log : List (Move kvSteps ι KvState)) : Prop :=
  ∀ m ∈ log, m.event.reply = (handleKv d m.event.request m.before).1

/-- The texts of a row are read as the value that was written. -/
theorem decode_stored {value : Json} {text stored t g k : String} {sensitive : Bool} {now : Time}
    (htext : d.render value = .ok text)
    (hstored : (if sensitive then d.world.decrypt stored else .ok stored) = .ok text) :
    KvStoreRow.decode d.world ⟨t, g, k, stored, sensitive, now⟩ = d.readBack value := by
  have hread : d.readBack value =
      (d.world.parseJson text).mapError fun e => .internal ("Invalid JSON in kv_store: " ++ e) := by
    rw [KvDeployment.readBack, htext]
    rfl
  rw [hread]
  cases sensitive with
  | false =>
    obtain rfl : stored = text := by simpa using hstored
    rfl
  | true =>
    have hdecrypt : d.world.decrypt stored = .ok text := by simpa using hstored
    rw [KvStoreRow.decode, if_pos rfl, hdecrypt]
    rfl

/-- **A write does to the table what it does to the map.** -/
theorem kvMap_upsert {db db' : Db} {now : Time} {tenantId groupKey key stored : String} {sensitive : Bool}
    {value : Except AppError Json} (h : upsertKv now db tenantId groupKey key stored sensitive = .ok db')
    (hdecode : ∀ t g k, KvStoreRow.decode d.world ⟨t, g, k, stored, sensitive, now⟩ = value) :
    ∃ k, storedKey tenantId groupKey key = some k ∧
      db'.kvMap d.world = Function.update (db.kvMap d.world) k (some ⟨value, sensitive⟩) := by
  obtain ⟨t, g, k, ht, hg, hk, hrow⟩ := upsertKv_ok h
  refine ⟨(t, g, k), ?_, ?_⟩
  · simp [storedKey, varcharReq_ok ht, varcharReq_ok hg, varcharReq_ok hk]
  · funext x
    obtain ⟨t', g', k'⟩ := x
    unfold Db.kvMap
    rw [hrow t' g' k', Function.update_apply]
    split
    · simp [hdecode]
    · rfl

/-- **A delete does to the table what it does to the map.** -/
theorem kvMap_delete (db : Db) (tenantId groupKey key : String) :
    (deleteKv db tenantId groupKey key).kvMap d.world =
      Function.update (db.kvMap d.world) (tenantId, groupKey, key) none := by
  funext x
  obtain ⟨t', g', k'⟩ := x
  unfold Db.kvMap
  rw [kv_delete, Function.update_apply]
  split <;> rfl

/-- **Every exchange does to the table what it does to the map.** -/
theorem handleKv_map (hA : d.aead.Lawful) {c : KvCall} {h : List (Event kvSteps)} {s : KvState}
    {q : KvRequest} (hstep : KvStep d c h ⟨q, (handleKv d q s).1⟩)
    (henc : ∀ text stored, (⟨KvRequest.encrypt text, .ok stored⟩ : Event kvSteps) ∈ h →
      ∃ n, d.world.encrypt n text = .ok stored) :
    (handleKv d q s).2.db.kvMap d.world =
      c.effect d ⟨q, (handleKv d q s).1⟩ (s.db.kvMap d.world) := by
  -- Whichever way the text is stored, it decodes to what the value reads as.
  have hwrite : ∀ tenantId groupKey key stored sensitive value,
      c = .set tenantId groupKey key value sensitive →
      (∀ t g k now, KvStoreRow.decode d.world ⟨t, g, k, stored, sensitive, now⟩ = d.readBack value) →
      q = .upsert tenantId groupKey key stored sensitive →
      (handleKv d q s).2.db.kvMap d.world =
        c.effect d ⟨q, (handleKv d q s).1⟩ (s.db.kvMap d.world) := by
    rintro tenantId groupKey key stored sensitive value rfl hdecode rfl
    cases hres : s.outage.elim (upsertKv s.now s.db tenantId groupKey key stored sensitive) .error with
    | error e => simp [handleKv, hres, KvCall.effect]
    | ok db =>
      have hok : upsertKv s.now s.db tenantId groupKey key stored sensitive = .ok db := by
        cases hout : s.outage with
        | none => simpa [hout] using hres
        | some e => simp [hout] at hres
      obtain ⟨k, hk, hmap⟩ := kvMap_upsert hok fun t g k => hdecode t g k s.now
      simp [handleKv, hres, KvCall.effect, hk, hmap]
  cases hstep with
  | select hq =>
    obtain rfl := hq
    rfl
  | encrypt _ hq =>
    obtain rfl := hq
    rfl
  | upsertSecret htext hq =>
    rename_i text stored
    obtain ⟨n, hn⟩ := henc text stored List.mem_cons_self
    exact hwrite _ _ _ _ _ _ rfl (fun t g k now => decode_stored htext
      (by simpa using d.decrypt_encrypt hA hn)) hq
  | upsertPlain htext hq =>
    exact hwrite _ _ _ _ _ _ rfl (fun t g k now => decode_stored htext rfl) hq
  | delete hq =>
    obtain rfl := hq
    cases hout : s.outage with
    | some e => simp [handleKv, hout, KvCall.effect]
    | none => simp [handleKv, hout, KvCall.effect, kvMap_delete]
  | selectAll hq =>
    obtain rfl := hq
    rfl

/-- A write that was replied to with success has gone through. -/
theorem upserted_of_reply {s : KvState} {tenantId groupKey key stored : String} {sensitive : Bool}
    (h : (handleKv d (.upsert tenantId groupKey key stored sensitive) s).1 = .ok ()) :
    ∃ db, upsertKv s.now s.db tenantId groupKey key stored sensitive = .ok db := by
  cases hout : s.outage with
  | some e => simp [handleKv, hout] at h
  | none =>
    cases hres : upsertKv s.now s.db tenantId groupKey key stored sensitive with
    | error e => simp [handleKv, hout, hres] at h
    | ok db => exact ⟨db, rfl⟩

/-- An encryption that a call has seen is one of the cipher. -/
theorem encrypted_of_own {log : List (Move kvSteps ι KvState)} (h : KvReplied d log) {i : ι}
    {text stored : String} (hmem : (⟨KvRequest.encrypt text, .ok stored⟩ : Event kvSteps) ∈ own i log) :
    ∃ n, d.world.encrypt n text = .ok stored := by
  obtain ⟨m, hm, -, hevent⟩ := mem_own.mp hmem
  have hreply := h m hm
  obtain ⟨who, event, before⟩ := m
  obtain rfl := hevent
  exact ⟨before.draws, hreply.symm⟩

/-- What goes on besides leaves the map alone. -/
theorem KvElsewhere.kvMap (t : KvElsewhere) (s : KvState) :
    (t.act s).db.kvMap d.world = s.db.kvMap d.world := by
  unfold Db.kvMap Db.kv
  rw [t.keeps]

/-- **The table is the map**, at the end of every run; and the replies are those of the requests. -/
theorem kvRun_table (hA : d.aead.Lawful) (l : List (ι ⊕ KvElsewhere)) :
    KvReplied d (kvRun d s call l).log ∧ (kvRun d s call l).state.db.kvMap d.world =
      mapAfter d call (s.db.kvMap d.world) (kvRun d s call l).log := by
  refine Config.run_invariant (C := fun i => .ofGuarantee (KvStep d (call i)))
    (Q := fun i => (call i).Ended d)
    (J := fun (s' : KvState) log => KvReplied d log ∧
      s'.db.kvMap d.world = mapAfter d call (s.db.kvMap d.world) log)
    (fun i => (call i).run_keeps d) (fun _ _ _ => trivial) ⟨by simp [KvReplied], rfl⟩ ?_ ?_ l
  · rintro s' log i q ⟨hreplied, hmap⟩ hstep
    refine ⟨?_, ?_⟩
    · intro m hm
      rcases List.mem_cons.mp hm with rfl | hm
      · rfl
      · exact hreplied m hm
    · rw [mapAfter_cons, ← hmap]
      exact handleKv_map hA hstep fun text stored hmem => encrypted_of_own hreplied hmem
  · rintro s' log t ⟨hreplied, hmap⟩
    exact ⟨hreplied, (t.kvMap s').trans hmap⟩

/-- **What is stored of a sensitive value is an encryption.** -/
theorem kvRun_secrets (l : List (ι ⊕ KvElsewhere)) :
    ∀ t g k r, (kvRun d s call l).state.db.kv t g k = some r → s.db.kv t g k = some r ∨
      (r.sensitive = true → ∃ n plain, d.world.encrypt n plain = .ok r.value) := by
  refine (Config.run_invariant (C := fun i => .ofGuarantee (KvStep d (call i)))
    (Q := fun i => (call i).Ended d)
    (J := fun (s' : KvState) log => KvReplied d log ∧ ∀ t g k r, s'.db.kv t g k = some r →
      s.db.kv t g k = some r ∨
        (r.sensitive = true → ∃ n plain, d.world.encrypt n plain = .ok r.value))
    (fun i => (call i).run_keeps d) (fun _ _ _ => trivial)
    ⟨by simp [KvReplied], fun _ _ _ _ hr => .inl hr⟩ ?_ ?_ l).2
  · rintro s' log i q ⟨hreplied, ih⟩ hstep
    refine ⟨?_, fun t g k r hr => ?_⟩
    · intro m hm
      rcases List.mem_cons.mp hm with rfl | hm
      · rfl
      · exact hreplied m hm
    · cases q with
      | encrypt plain => exact ih t g k r hr
      | select t' g' k' => exact ih t g k r hr
      | selectAll t' g' k' => exact ih t g k r hr
      | delete t' g' k' =>
        cases hout : s'.outage with
        | some e =>
          simp only [handleKv, hout] at hr
          exact ih t g k r hr
        | none =>
          simp only [handleKv, hout, kv_delete] at hr
          split at hr
          · cases hr
          · exact ih t g k r hr
      | upsert t' g' k' stored sensitive =>
        cases hres : s'.outage.elim (upsertKv s'.now s'.db t' g' k' stored sensitive) .error with
        | error e =>
          simp only [handleKv, hres] at hr
          exact ih t g k r hr
        | ok db =>
          have hok : upsertKv s'.now s'.db t' g' k' stored sensitive = .ok db := by
            cases hout : s'.outage with
            | none => simpa [hout] using hres
            | some e => simp [hout] at hres
          obtain ⟨_, _, _, -, -, -, hrow⟩ := upsertKv_ok hok
          simp only [handleKv, hres, hrow] at hr
          split at hr
          · cases hr
            refine .inr fun hsensitive => ?_
            -- The call has encrypted what it stores.
            generalize call i = c at hstep
            generalize hown : own i log = h at hstep
            cases hstep with
            | upsertSecret htext hq =>
              obtain ⟨rfl, rfl, rfl, rfl, -⟩ := KvRequest.upsert.inj hq
              obtain ⟨n, hn⟩ := encrypted_of_own hreplied (hown ▸ List.mem_cons_self)
              exact ⟨n, _, hn⟩
            | upsertPlain htext hq =>
              obtain ⟨-, -, -, -, rfl⟩ := KvRequest.upsert.inj hq
              cases hsensitive
            | select hq => cases hq
            | encrypt _ hq => cases hq
            | delete hq => cases hq
            | selectAll hq => cases hq
          · exact ih t g k r hr
  · rintro s' log t ⟨hreplied, ih⟩
    refine ⟨hreplied, fun t' g k r hr => ih t' g k r ?_⟩
    unfold Db.kv at hr ⊢
    rwa [t.keeps] at hr

/-! ### Answers -/

/-- A row is decoded to what its key holds. -/
theorem answers_get {db : Db} {tenantId groupKey key : String} {v : Option Json}
    (h : decodeKv d.world (db.kv tenantId groupKey key) = .ok v) :
    (KvCall.get tenantId groupKey key).Answers (db.kvMap d.world) (.value v) := by
  apply KvCall.Answers.get
  unfold Db.kvMap
  cases hrow : db.kv tenantId groupKey key with
  | none =>
    rw [hrow] at h
    cases h
    rfl
  | some r =>
    rw [hrow] at h
    show some (r.decode d.world) = v.map .ok
    cases hdecode : r.decode d.world with
    | error e =>
      simp only [decodeKv, hdecode] at h
      cases h
    | ok x =>
      simp only [decodeKv, hdecode] at h
      obtain rfl := Except.ok.inj h
      rfl

/-- A delete has touched a row exactly when its key held something. -/
theorem answers_delete (db : Db) (tenantId groupKey key : String) :
    (KvCall.delete tenantId groupKey key).Answers (db.kvMap d.world)
      (.deleted (0 < db.kvStore.affected (KvStoreRow.keyIs tenantId groupKey key))) := by
  have hsome : decide (0 < db.kvStore.affected (KvStoreRow.keyIs tenantId groupKey key)) =
      (db.kvMap d.world (tenantId, groupKey, key)).isSome := by
    rw [Bool.eq_iff_iff, decide_eq_true_iff, affected_kv_pos]
    simp [Db.kvMap]
  rw [hsome]
  exact .delete

theorem KvStoreRow.listed_iff {tenantId : String} {groupKey key : Option String} {r : KvStoreRow} :
    r.listed tenantId groupKey key = true ↔ r.tenantId = tenantId ∧
      ∀ g ∈ groupKey, r.groupKey = g ∧ ∀ k ∈ key, r.key = k := by
  simp [listed, Option.all_eq_true]

/-- **The rows of a tenant are the keys that hold something**, each once. -/
theorem answers_list (db : Db) (tenantId : String) (groupKey key : Option String) :
    (KvCall.list tenantId groupKey key).Answers (db.kvMap d.world)
      (.keys ((d.arrange (db.kvStore.select (KvStoreRow.listed tenantId groupKey key))).map
        fun r => (r.groupKey, r.key, r.sensitive))) := by
  have hperm := d.arrange_perm (db.kvStore.select (KvStoreRow.listed tenantId groupKey key))
  have hlisted : ∀ {r : KvStoreRow}, r ∈ d.arrange (db.kvStore.select
      (KvStoreRow.listed tenantId groupKey key)) ↔ r ∈ db.kvStore ∧ r.tenantId = tenantId ∧
        ∀ g ∈ groupKey, r.groupKey = g ∧ ∀ k ∈ key, r.key = k := by
    intro r
    rw [hperm.mem_iff, Table.mem_select, KvStoreRow.listed_iff]
  apply KvCall.Answers.list
  · -- Rows of one tenant with one group and key are one row.
    rw [List.map_map]
    refine List.Nodup.map_on ?_ (hperm.nodup_iff.mpr (db.kvStore.rows_nodup.sublist List.filter_sublist))
    intro r hr r' hr' heq
    obtain ⟨hmem, htenant, -⟩ := hlisted.mp hr
    obtain ⟨hmem', htenant', -⟩ := hlisted.mp hr'
    obtain ⟨hgroup, hkey⟩ : r.groupKey = r'.groupKey ∧ r.key = r'.key := by simpa using heq
    refine Table.eq_of_key_eq hmem hmem' ?_
    rw [htenant, htenant', hgroup, hkey]
  · intro g k b
    simp only [List.mem_map, hlisted]
    constructor
    · rintro ⟨r, ⟨hr, rfl, hfilter⟩, heq⟩
      obtain ⟨rfl, rfl, rfl⟩ : r.groupKey = g ∧ r.key = k ∧ r.sensitive = b := by simpa using heq
      refine ⟨⟨r.decode d.world, ?_⟩, fun g' hg' => ?_⟩
      · have hrow : db.kv r.tenantId r.groupKey r.key = some r := Db.kv_eq_some.mpr ⟨hr, rfl⟩
        simp [Db.kvMap, hrow]
      · obtain ⟨hg, hk⟩ := hfilter g' hg'
        exact ⟨hg, hk⟩
    · rintro ⟨⟨v, hv⟩, hfilter⟩
      obtain ⟨r, hrow, hentry⟩ := Option.map_eq_some_iff.mp hv
      obtain ⟨hr, hkey⟩ := Db.kv_eq_some.mp hrow
      obtain ⟨rfl, rfl, rfl⟩ : r.tenantId = tenantId ∧ r.groupKey = g ∧ r.key = k := by
        simpa using hkey
      obtain ⟨-, rfl⟩ := KvEntry.mk.inj hentry
      exact ⟨r, ⟨hr, rfl, hfilter⟩, rfl⟩

/-- **A call that returns answers as the map did at its statement.** -/
theorem kvRun_answers (hA : d.aead.Lawful) (l : List (ι ⊕ KvElsewhere))
    {i : ι} {a : KvAnswer} (ha : (kvRun d s call l).threads i = .pure a) :
    ∃ newer m older, (kvRun d s call l).log = newer ++ m :: older ∧ m.who = i ∧ own i newer = [] ∧
      (∀ e ∈ own i older, ∃ plain, e.request = KvRequest.encrypt plain) ∧
      (call i).Answers (mapAfter d call (s.db.kvMap d.world) older) a := by
  have hdone : KvDone d (call i) (own i (kvRun d s call l).log) a :=
    Config.run_outcome (C := fun i => .ofGuarantee (KvStep d (call i)))
      (Q := fun i => (call i).Ended d) (fun i => (call i).run_keeps d) (fun _ _ _ => trivial) l ha
  generalize hcall : call i = c at hdone ⊢
  -- The last exchange of the call, as a move of the record, and the run up to it.
  have hlast : ∀ {e : Event kvSteps} {h : List (Event kvSteps)},
      own i (kvRun d s call l).log = e :: h →
        ∃ newer m older, (kvRun d s call l).log = newer ++ m :: older ∧ m.who = i ∧ m.event = e ∧
          own i newer = [] ∧ own i older = h ∧ e.reply = (handleKv d e.request m.before).1 ∧
          m.before.db.kvMap d.world = mapAfter d call (s.db.kvMap d.world) older := by
    intro e h hown
    obtain ⟨newer, m, older, hlog, rfl, rfl, hold⟩ :=
      own_split (hown.trans (List.nil_append _).symm)
    obtain ⟨l', -, -, hlog', hstate, -, hreply⟩ := Config.run_log_split l hlog
    refine ⟨newer, m, older, hlog, rfl, rfl, ?_, hold, hreply, ?_⟩
    · have hlength := congrArg List.length hown
      rw [hlog, own_append, own_cons_self, hold] at hlength
      simpa using hlength
    · rw [← hstate, ← hlog']
      exact (kvRun_table hA l').2
  generalize hown : own i (kvRun d s call l).log = h at hdone
  cases hdone with
  | get hvalue =>
    obtain ⟨newer, m, older, hlog, hwho, hevent, hnew, hold, hreply, hmap⟩ := hlast hown
    refine ⟨newer, m, older, hlog, hwho, hnew, by simp [hold], ?_⟩
    rw [← hmap]
    apply answers_get
    cases hout : m.before.outage with
    | some e => simp [handleKv, hout] at hreply
    | none =>
      obtain rfl : _ = m.before.db.kv _ _ _ := by simpa [handleKv, hout] using hreply
      exact hvalue
  | set henc =>
    obtain ⟨newer, m, older, hlog, hwho, hevent, hnew, hold, hreply, hmap⟩ := hlast hown
    refine ⟨newer, m, older, hlog, hwho, hnew, by rwa [hold], ?_⟩
    obtain ⟨db, hok⟩ := upserted_of_reply hreply.symm
    obtain ⟨t, g, k, ht, hg, hk, -⟩ := upsertKv_ok hok
    exact .set (k := (t, g, k)) (by simp [storedKey, varcharReq_ok ht, varcharReq_ok hg, varcharReq_ok hk])
  | delete =>
    obtain ⟨newer, m, older, hlog, hwho, hevent, hnew, hold, hreply, hmap⟩ := hlast hown
    refine ⟨newer, m, older, hlog, hwho, hnew, by simp [hold], ?_⟩
    rw [← hmap]
    cases hout : m.before.outage with
    | some e => simp [handleKv, hout] at hreply
    | none =>
      obtain rfl : _ = m.before.db.kvStore.affected _ := by simpa [handleKv, hout] using hreply
      exact answers_delete _ _ _ _
  | list =>
    obtain ⟨newer, m, older, hlog, hwho, hevent, hnew, hold, hreply, hmap⟩ := hlast hown
    refine ⟨newer, m, older, hlog, hwho, hnew, by simp [hold], ?_⟩
    rw [← hmap]
    cases hout : m.before.outage with
    | some e => simp [handleKv, hout] at hreply
    | none =>
      obtain rfl : _ = d.arrange _ := by simpa [handleKv, hout] using hreply
      exact answers_list _ _ _ _

/-- **The repository stores a map**, in every run. -/
theorem run_storesMap (hA : d.aead.Lawful) (l : List (ι ⊕ KvElsewhere)) :
    StoresMap d s call (kvRun d s call l) where
  table := (kvRun_table hA l).2
  answers := fun _ _ ha => kvRun_answers hA l ha
  secrets := kvRun_secrets l

end Runs

/-- A deployment that stores whether something is enabled, encrypted under the sample cipher. -/
def KvDeployment.sample : KvDeployment where
  base := { World.offline with
    parseJson := fun text => if text = "true" then .ok (.bool true) else .error "expected value" }
  aead := .sample
  cipher := sampleCipher
  nonce _ := ⟨[0, 1, 2, 3, 4, 5, 6, 7, 8, 9, 10, 11], rfl⟩
  render
    | .bool true => .ok "true"
    | _ => .error "unsupported"
  arrange := id
  arrange_perm _ := .refl _

/-- One call enables a provider, in secret, and another reads the setting. -/
def enableAndRead : Bool → KvCall
  | false => .set "acme" "auth_google" "enabled" (.bool true) true
  | true => .get "acme" "auth_google" "enabled"

/-- One tenant and no configuration. -/
def unconfigured : KvState where
  db := { Db.empty with tenants := .single ⟨"acme", "Acme", "active", 0⟩ }
  outage := none
  now := 0
  draws := 0

/-- The setting is read as it was written. -/
theorem run_storesMap_enableAndRead :
    StoresMap .sample unconfigured enableAndRead
        (kvRun .sample unconfigured enableAndRead [.inl false, .inl false, .inl true]) ∧
      (kvRun .sample unconfigured enableAndRead [.inl false, .inl false, .inl true]).threads true =
        .pure (.value (some (.bool true))) :=
  ⟨run_storesMap Aead.sample_lawful _, by with_unfolding_all rfl⟩

end Authrs
