import Authrs.Services.TenantConfig
import Authrs.Store.SecretCipher

/-!
# The repository of the configuration

`KvStoreRepo` reads and writes the configuration of the tenants. A value is stored as a JSON text, and
encrypted if it is sensitive. Every function sends one statement; a write of a sensitive value draws a
nonce before it.

## Main definitions

* `KvDeployment`: the cipher and its nonces, the JSON library, the order of unordered rows
* `KvRequest`, `KvState`, `handleKv`: the statements, and what they do
* `KvStoreRepo.get`, `set`, `delete`, `list`: their namesakes in the source

## Main results

* `Db.kv_eq_some`: the row under a key
* `upsertKv_ok`: a successful write stores its row, under the key as it fits the columns
* `kv_delete`: a delete removes the row under its key
-/

namespace Authrs

open Interaction Relational

/-- A deployment: a world whose cipher of secrets is `SecretCipher`, the texts of JSON values, and the
order in which rows come when none is asked for. -/
structure KvDeployment where
  base : World
  aead : Aead
  cipher : SecretCipher
  nonce : Nat → SecretCipher.Nonce
  /-- `serde_json::to_string`. -/
  render : Json → Except String String
  arrange : List KvStoreRow → List KvStoreRow
  arrange_perm : ∀ l, (arrange l).Perm l

/-- The world of a deployment. -/
def KvDeployment.world (d : KvDeployment) : World :=
  { d.base with
    encrypt := fun n plain => d.cipher.encrypt d.aead (d.nonce n) plain
    decrypt := d.cipher.decrypt d.aead }

/-! ### Statements -/

/-- `WHERE tenant_id = $1 AND group_key = $2 AND key = $3`. -/
def KvStoreRow.keyIs (tenantId groupKey key : String) (r : KvStoreRow) : Bool :=
  r.tenantId = tenantId && r.groupKey = groupKey && r.key = key

/-- `WHERE tenant_id = $1`, and the group, and with it the key, where they are given. -/
def KvStoreRow.listed (tenantId : String) (groupKey key : Option String) (r : KvStoreRow) : Bool :=
  r.tenantId = tenantId && groupKey.all fun g => r.groupKey = g && key.all fun k => r.key = k

/-- `SET value = $4, sensitive = $5, updated_at = now()`. -/
def KvStoreRow.withValue (now : Time) (value : String) (sensitive : Bool) (r : KvStoreRow) :
    KvStoreRow :=
  { r with value := value, sensitive := sensitive, updatedAt := now }

theorem KvStoreRow.withValue_key (now : Time) (value : String) (sensitive : Bool) (r : KvStoreRow) :
    ((r.withValue now value sensitive).tenantId, (r.withValue now value sensitive).groupKey,
      (r.withValue now value sensitive).key) = (r.tenantId, r.groupKey, r.key) := rfl

/-- `INSERT INTO kv_store … ON CONFLICT (tenant_id, group_key, key) DO UPDATE`. -/
def upsertKv (now : Time) (db : Db) (tenantId groupKey key value : String) (sensitive : Bool) :
    Except SqlError Db := do
  let tenantId ← varcharReq 255 tenantId
  let groupKey ← varcharReq 255 groupKey
  let key ← varcharReq 255 key
  match db.kvStore.insert? ⟨tenantId, groupKey, key, value, sensitive, now⟩ with
  | some rows =>
    if (db.tenants.selectOne fun r => r.id = tenantId).isNone then
      .error (.foreignKeyViolation "kv_store" "kv_store_tenant_id_fkey")
    else .ok { db with kvStore := rows }
  | none =>
    .ok { db with
      kvStore := db.kvStore.update (KvStoreRow.keyIs tenantId groupKey key)
        (.withValue now value sensitive) (KvStoreRow.withValue_key now value sensitive) }

/-- `DELETE FROM kv_store`. -/
def deleteKv (db : Db) (tenantId groupKey key : String) : Db :=
  { db with kvStore := db.kvStore.delete (KvStoreRow.keyIs tenantId groupKey key) }

/-- A request of the repository. -/
inductive KvRequest
  | encrypt (plain : String)
  | select (tenantId groupKey key : String)
  | upsert (tenantId groupKey key value : String) (sensitive : Bool)
  | delete (tenantId groupKey key : String)
  | selectAll (tenantId : String) (groupKey key : Option String)

/-- The reply to a request. -/
@[reducible] def KvReply : KvRequest → Type
  | .encrypt _ => Except AppError String
  | .select .. => Except SqlError (Option KvStoreRow)
  | .upsert .. => Except SqlError Unit
  | .delete .. => Except SqlError Nat
  | .selectAll .. => Except SqlError (List KvStoreRow)

abbrev kvSteps : Interface := ⟨KvRequest, KvReply⟩

/-- What the repository acts on: the tables, whether they can be reached, the clock, and the nonces
drawn. -/
structure KvState where
  db : Db
  outage : Option SqlError
  now : Time
  draws : Nat

/-- **The meaning of the requests.** -/
def handleKv (d : KvDeployment) : Handler kvSteps KvState
  | .encrypt plain, s => (d.world.encrypt s.draws plain, { s with draws := s.draws + 1 })
  | .select tenantId groupKey key, s =>
    (s.outage.elim (.ok (s.db.kv tenantId groupKey key)) .error, s)
  | .upsert tenantId groupKey key value sensitive, s =>
    match s.outage.elim (upsertKv s.now s.db tenantId groupKey key value sensitive) .error with
    | .ok db => (.ok (), { s with db := db })
    | .error e => (.error e, s)
  | .delete tenantId groupKey key, s =>
    match s.outage with
    | none => (.ok (s.db.kvStore.affected (KvStoreRow.keyIs tenantId groupKey key)),
        { s with db := deleteKv s.db tenantId groupKey key })
    | some e => (.error e, s)
  | .selectAll tenantId groupKey key, s =>
    (s.outage.elim (.ok (d.arrange (s.db.kvStore.select (KvStoreRow.listed tenantId groupKey key))))
      .error, s)

/-! ### The repository -/

/-- A function of the repository. -/
abbrev KvProgram (α : Type) : Type := Program kvSteps AppError α

/-- `?` on a reply. -/
def kvQuery {α : Type} (reply : Except SqlError α) : KvProgram α :=
  Program.ofExcept (reply.mapError AppError.ofSqlError)

namespace KvStoreRepo

variable (d : KvDeployment)

def get (tenantId groupKey key : String) : KvProgram (Option Json) := do
  let row ← Program.request (I := kvSteps) (KvRequest.select tenantId groupKey key)
  let row ← kvQuery row
  Program.ofExcept (decodeKv d.world row)

/-- The text that is stored: encrypted if the value is sensitive. -/
def sealed (text : String) (sensitive : Bool) : KvProgram String :=
  if sensitive then do
    let encrypted ← Program.request (I := kvSteps) (KvRequest.encrypt text)
    Program.ofExcept encrypted
  else pure text

def set (tenantId groupKey key : String) (value : Json) (sensitive : Bool) : KvProgram Unit := do
  let text ← Program.ofExcept ((d.render value).mapError AppError.internal)
  let stored ← sealed text sensitive
  let done ← Program.request (I := kvSteps) (KvRequest.upsert tenantId groupKey key stored sensitive)
  kvQuery done

def delete (tenantId groupKey key : String) : KvProgram Bool := do
  let affected ← Program.request (I := kvSteps) (KvRequest.delete tenantId groupKey key)
  let affected ← kvQuery affected
  pure (0 < affected)

/-- The keys of a tenant, and whether their values are sensitive. A filter for the key is used with one
for the group only. -/
def list (tenantId : String) (groupKeyFilter keyFilter : Option String) :
    KvProgram (List (String × String × Bool)) := do
  let rows ← Program.request (I := kvSteps) (KvRequest.selectAll tenantId groupKeyFilter keyFilter)
  let rows ← kvQuery rows
  pure (rows.map fun r => (r.groupKey, r.key, r.sensitive))

end KvStoreRepo

/-! ### Rows by key -/

section Rows

variable {db db' : Db} {tenantId groupKey key : String} {r : KvStoreRow}

theorem KvStoreRow.keyIs_iff :
    r.keyIs tenantId groupKey key = true ↔
      (r.tenantId, r.groupKey, r.key) = (tenantId, groupKey, key) := by
  simp [keyIs, and_assoc]

theorem KvStoreRow.keyIs_eq (tenantId groupKey key : String) :
    KvStoreRow.keyIs tenantId groupKey key = fun r =>
      decide ((r.tenantId, r.groupKey, r.key) = (tenantId, groupKey, key)) := by
  funext r
  rw [Bool.eq_iff_iff, keyIs_iff, decide_eq_true_eq]

theorem Db.kv_eq_selectOne :
    db.kv tenantId groupKey key = db.kvStore.selectOne fun r =>
      (r.tenantId, r.groupKey, r.key) = (tenantId, groupKey, key) := by
  unfold Db.kv
  congr 1
  funext r
  simp [Bool.and_assoc]

/-- **The row under a key.** -/
theorem Db.kv_eq_some :
    db.kv tenantId groupKey key = some r ↔
      r ∈ db.kvStore ∧ (r.tenantId, r.groupKey, r.key) = (tenantId, groupKey, key) := by
  rw [Db.kv_eq_selectOne]
  exact Table.selectOne_key

/-- **A successful write stores its row**, under the key as it fits the columns; the other rows stay. -/
theorem upsertKv_ok {now : Time} {value : String} {sensitive : Bool}
    (h : upsertKv now db tenantId groupKey key value sensitive = .ok db') :
    ∃ t g k, varcharReq 255 tenantId = .ok t ∧ varcharReq 255 groupKey = .ok g ∧
      varcharReq 255 key = .ok k ∧ ∀ t' g' k', db'.kv t' g' k' =
        if (t', g', k') = (t, g, k) then some ⟨t, g, k, value, sensitive, now⟩ else db.kv t' g' k' := by
  unfold upsertKv at h
  simp only [bind_eq_ok] at h
  obtain ⟨t, ht, g, hg, k, hk, h⟩ := h
  refine ⟨t, g, k, ht, hg, hk, fun t' g' k' => ?_⟩
  rw [Db.kv_eq_selectOne, Db.kv_eq_selectOne]
  split at h
  · -- There was no row under the key.
    rename_i rows hrows
    split at h <;> cases h
    exact Table.selectOne_insert? hrows
  · -- There was one, and it is changed.
    rename_i hnone
    cases h
    obtain ⟨old, hold, holdkey⟩ := Table.insert?_eq_none.mp hnone
    dsimp only
    simp only [KvStoreRow.keyIs_eq]
    rw [Table.selectOne_update_key]
    split
    · rename_i hsame
      rw [hsame, Table.selectOne_key.mpr ⟨hold, holdkey⟩]
      obtain ⟨rfl, rfl, rfl⟩ : old.tenantId = t ∧ old.groupKey = g ∧ old.key = k := by
        simpa using holdkey
      rfl
    · rfl

/-- **A delete removes the row under its key**; the other rows stay. -/
theorem kv_delete (t' g' k' : String) :
    (deleteKv db tenantId groupKey key).kv t' g' k' =
      if (t', g', k') = (tenantId, groupKey, key) then none else db.kv t' g' k' := by
  rw [Db.kv_eq_selectOne, Db.kv_eq_selectOne, deleteKv, KvStoreRow.keyIs_eq]
  exact Table.selectOne_delete_key

/-- A delete touches a row when there is one under its key. -/
theorem affected_kv_pos :
    0 < db.kvStore.affected (KvStoreRow.keyIs tenantId groupKey key) ↔
      (db.kv tenantId groupKey key).isSome = true := by
  rw [Table.affected_pos, Option.isSome_iff_exists]
  refine exists_congr fun r => ?_
  rw [Db.kv_eq_some, KvStoreRow.keyIs_iff]

end Rows

end Authrs
