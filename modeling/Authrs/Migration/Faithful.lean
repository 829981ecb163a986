import Authrs.Migration.Backfill

/-!
# What the backfill keeps

Whatever the migrations do, they keep every user and link it to an identity with its handle, as long
as they end without an error. Each statement keeps an invariant: the users are those of before, an
identity has the handles of one of them, no email twice and a whole mobile number or none, and the
users of one identity share a handle.

## Main definitions

* `Preserved`: what the migrations should make of the users
* `Faithful`: the invariant of the statements

## Main results

* `Faithful.insert`, `Faithful.link`, `Faithful.forceReset`, `Faithful.addLocal`: every statement
  keeps it
* `backfill_faithful`: so does migration 16
* `migrate_preserved`: after the migrations the users are preserved
-/

namespace Authrs

open Relational

/-- Two users have the same email up to case, or the same mobile number. -/
def SharesHandle (lower : String → String) (u v : UserRow) : Prop :=
  (∃ e e', u.email = some e ∧ v.email = some e' ∧ lower e = lower e') ∨
    u.mobile ≠ none ∧ u.mobile = v.mobile ∧ u.countryCode = v.countryCode

/-- **The users are preserved**: all of them are still there, with everything but the link
unchanged; each is linked, apart from those that share no handle with it; and an email is the email of
the identity, up to case. -/
structure Preserved (lower : String → String) (users : UserTable) (b : Migrating) : Prop where
  kept : b.userRows = users.rows
  linked : ∀ u ∈ b.users, u.identityId ≠ none
  apart : ∀ u ∈ b.users, ∀ v ∈ b.users, u.identityId = v.identityId →
    u = v ∨ SharesHandle lower u.toUserRow v.toUserRow
  own : ∀ u ∈ b.users, ∀ e, u.email = some e →
    ∃ i ∈ b.identities, u.identityId = some i.id ∧ ∃ e', i.email = some e' ∧ lower e' = lower e

/-! ### What the statements keep -/

/-- The identity has the handle of the user. -/
def Matches (lower : String → String) (u : UserRow) (i : Identity) : Prop :=
  match u.email with
  | some e => ∃ e', i.email = some e' ∧ lower e' = lower e
  | none => i.email = none ∧ i.mobile = u.mobile ∧ (u.mobile ≠ none → i.countryCode = u.countryCode)

/-- An identity without a global handle, or with those of one of the users. -/
def Copied (us : List UserRow) (i : Identity) : Prop :=
  i.email = none ∧ i.mobile = none ∨
    ∃ u ∈ us, i.email = u.email ∧ i.mobile = u.mobile ∧ i.countryCode = u.countryCode

/-- **The invariant of the statements.** -/
structure Faithful (lower : String → String) (newId : Nat → Uuid) (us : List UserRow) (b : Migrating) :
    Prop where
  kept : b.userRows = us
  linked : ∀ u ∈ b.users, ∀ k, u.identityId = some k →
    ∃ i ∈ b.identities, i.id = k ∧ Matches lower u.toUserRow i
  apart : ∀ u ∈ b.users, ∀ v ∈ b.users, ∀ k, u.identityId = some k → v.identityId = some k →
    u = v ∨ SharesHandle lower u.toUserRow v.toUserRow
  emails : ∀ i ∈ b.identities, ∀ j ∈ b.identities, sameEmail lower i j = true → i = j
  copied : ∀ i ∈ b.identities, Copied us i
  paired : ∀ i ∈ b.identities, i.mobile.isNone = i.countryCode.isNone
  drawn : ∀ i ∈ b.identities, ∃ k < b.drawn, i.id = newId k

section Statements

variable {lower : String → String} {newId : Nat → Uuid} {now : Time} {us : List UserRow}
  {b b' : Migrating} {row : Uuid → Identity}

theorem sameEmail_comm (i j : Identity) : sameEmail lower i j = sameEmail lower j i := by
  unfold sameEmail
  cases i.email <;> cases j.email <;> simp [eq_comm]

/-- **An insert that succeeds.** -/
theorem insert_eq_ok (h : b.insert lower newId row = .ok b') :
    (row (newId b.drawn)).mobile.isNone = (row (newId b.drawn)).countryCode.isNone ∧
      (∀ j ∈ b.identities, sameEmail lower (row (newId b.drawn)) j = false) ∧
      ∃ t, b.identities.insert? (row (newId b.drawn)) = some t ∧
        b' = { b with identities := t, drawn := b.drawn + 1 } := by
  unfold Migrating.insert at h
  split at h
  · cases h
  · rename_i hpair
    split at h
    · cases h
    · rename_i t ht
      split at h
      · cases h
      · rename_i hemail
        split at h
        · cases h
        · cases h
          refine ⟨not_not.mp hpair, fun j hj => ?_, t, ht, rfl⟩
          exact Bool.eq_false_iff.mpr fun hsame => hemail (List.any_eq_true.mpr ⟨j, hj, hsame⟩)

/-- **An insert keeps the invariant**, when it copies handles and takes the new identifier. -/
theorem Faithful.insert (hb : Faithful lower newId us b) (hrow : Copied us (row (newId b.drawn)))
    (hid : (row (newId b.drawn)).id = newId b.drawn) (h : b.insert lower newId row = .ok b') :
    Faithful lower newId us b' := by
  obtain ⟨hpair, hemail, t, hins, rfl⟩ := insert_eq_ok h
  have hmem : ∀ i, i ∈ t ↔ i = row (newId b.drawn) ∨ i ∈ b.identities := fun i => Table.mem_insert? hins
  refine ⟨hb.kept, fun u hu k hk => ?_, hb.apart, fun i hi j hj hsame => ?_, fun i hi => ?_,
    fun i hi => ?_, fun i hi => ?_⟩
  · obtain ⟨i, hi, hmatch⟩ := hb.linked u hu k hk
    exact ⟨i, (hmem i).mpr (.inr hi), hmatch⟩
  · rcases (hmem i).mp hi with rfl | hi'
    · rcases (hmem j).mp hj with rfl | hj'
      · rfl
      · rw [hemail j hj'] at hsame
        cases hsame
    · rcases (hmem j).mp hj with rfl | hj'
      · rw [sameEmail_comm, hemail i hi'] at hsame
        cases hsame
      · exact hb.emails i hi' j hj' hsame
  · rcases (hmem i).mp hi with rfl | hi'
    · exact hrow
    · exact hb.copied i hi'
  · rcases (hmem i).mp hi with rfl | hi'
    · exact hpair
    · exact hb.paired i hi'
  · rcases (hmem i).mp hi with rfl | hi'
    · exact ⟨b.drawn, Nat.lt_succ_self _, hid⟩
    · obtain ⟨k, hk, hik⟩ := hb.drawn i hi'
      exact ⟨k, Nat.lt_succ_of_lt hk, hik⟩

/-- **Inserts keep the invariant**, one after the other. -/
theorem Faithful.insertAll {rowOf : UserRow → Uuid → Identity} {rows : List UserRow}
    (hb : Faithful lower newId us b) (hrow : ∀ u ∈ rows, ∀ k, Copied us (rowOf u k))
    (hid : ∀ u k, (rowOf u k).id = k) (h : b.insertAll lower newId rowOf rows = .ok b') :
    Faithful lower newId us b' := by
  unfold Migrating.insertAll at h
  induction rows generalizing b with
  | nil =>
    cases h
    exact hb
  | cons u rows ih =>
    rw [List.foldlM_cons] at h
    obtain ⟨b₁, hinsert, hrest⟩ := bind_eq_ok.mp h
    refine ih (hb.insert (hrow u List.mem_cons_self _) (hid u _) hinsert) ?_ hrest
    exact fun v hv => hrow v (List.mem_cons_of_mem u hv)

/-- Two users that match one identity share a handle, unless it has none. -/
theorem sharesHandle_of_matches {u v : UserRow} {i : Identity} (hu : Matches lower u i)
    (hv : Matches lower v i) (hi : i.email ≠ none ∨ i.mobile ≠ none) : SharesHandle lower u v := by
  unfold Matches at hu hv
  cases hue : u.email with
  | some e =>
    rw [hue] at hu
    obtain ⟨e', he', hlower⟩ := hu
    cases hve : v.email with
    | some f =>
      rw [hve] at hv
      obtain ⟨f', hf', hlower'⟩ := hv
      obtain rfl : e' = f' := Option.some.inj (he'.symm.trans hf')
      exact .inl ⟨e, f, hue, hve, hlower.symm.trans hlower'⟩
    | none =>
      rw [hve] at hv
      rw [hv.1] at he'
      cases he'
  | none =>
    rw [hue] at hu
    cases hve : v.email with
    | some f =>
      rw [hve] at hv
      obtain ⟨f', hf', -⟩ := hv
      rw [hu.1] at hf'
      cases hf'
    | none =>
      rw [hve] at hv
      have hmobile : i.mobile ≠ none := hi.resolve_left fun h => h hu.1
      have hum : u.mobile ≠ none := by rwa [← hu.2.1]
      have hvm : v.mobile ≠ none := by rwa [← hv.2.1]
      exact .inr ⟨hum, hu.2.1.symm.trans hv.2.1, (hu.2.2 hum).symm.trans (hv.2.2 hvm)⟩

/-- What a link makes of a user. -/
theorem link_cases {joins : LinkedUser → Identity → Bool} {v : LinkedUser}
    (hv : v ∈ (b.link joins).users) :
    v ∈ b.users ∨ ∃ u ∈ b.users, ∃ i ∈ b.identities, joins u i = true ∧
      v = { u with identityId := some i.id } := by
  obtain ⟨u, hu, rfl⟩ := Migrating.mem_link.mp hv
  unfold LinkedUser.joined
  cases hi : b.identities.selectOne (joins u) with
  | none => exact .inl hu
  | some i => exact .inr ⟨u, hu, i, Table.selectOne_mem hi, Table.selectOne_pos hi, rfl⟩

theorem link_userRows (joins : LinkedUser → Identity → Bool) :
    (b.link joins).userRows = b.userRows := by
  unfold Migrating.userRows Migrating.link Table.update
  rw [List.map_map]
  refine List.map_congr_left fun u _ => ?_
  change (if true = true then u.joined b.identities joins else u).toUserRow = u.toUserRow
  rw [if_pos rfl, LinkedUser.joined_toUserRow]

/-- **A link keeps the invariant**, when it joins users with identities that have their handle. -/
theorem Faithful.link (hb : Faithful lower newId us b) {joins : LinkedUser → Identity → Bool}
    (hjoins : ∀ u i, joins u i = true →
      Matches lower u.toUserRow i ∧ (i.email ≠ none ∨ i.mobile ≠ none)) :
    Faithful lower newId us (b.link joins) := by
  have hlinked : ∀ u ∈ (b.link joins).users, ∀ k, u.identityId = some k →
      ∃ i ∈ b.identities, i.id = k ∧ Matches lower u.toUserRow i := by
    intro v hv k hk
    rcases link_cases hv with hold | ⟨u, hu, i, hi, hjoin, rfl⟩
    · exact hb.linked v hold k hk
    · exact ⟨i, hi, Option.some.inj hk, (hjoins u i hjoin).1⟩
  -- a user that was linked just now shares the identity by its handle
  have hnew : ∀ u ∈ b.users, ∀ i ∈ b.identities, joins u i = true → ∀ v ∈ (b.link joins).users,
      v.identityId = some i.id → SharesHandle lower u.toUserRow v.toUserRow := by
    intro u _ i hi hjoin v hv hk
    obtain ⟨j, hj, hid, hmatch⟩ := hlinked v hv i.id hk
    obtain rfl := Table.eq_of_key_eq hj hi hid
    exact sharesHandle_of_matches (hjoins u j hjoin).1 hmatch (hjoins u j hjoin).2
  refine ⟨(link_userRows joins).trans hb.kept, hlinked, fun u hu v hv k hk hk' => ?_, hb.emails,
    hb.copied, hb.paired, hb.drawn⟩
  rcases link_cases hu with hold | ⟨x, hx, i, hi, hjoin, rfl⟩
  · rcases link_cases hv with hold' | ⟨y, hy, j, hj, hjoin', rfl⟩
    · exact hb.apart u hold v hold' k hk hk'
    · have hshare := hnew y hy j hj hjoin' u hu (hk.trans hk'.symm)
      refine .inr ?_
      rcases hshare with ⟨e, e', he, he', heq⟩ | ⟨hm, hsame, hcode⟩
      · exact .inl ⟨e', e, he', he, heq.symm⟩
      · exact .inr ⟨hsame ▸ hm, hsame.symm, hcode.symm⟩
  · exact .inr (hnew x hx i hi hjoin v hv (hk'.trans hk.symm))

/-- A forced reset leaves the handles alone. -/
theorem handles_of_forceReset {chosen : Identity → Bool} {j : Identity}
    (hj : j ∈ (b.forceReset chosen).identities) : ∃ i ∈ b.identities, j.id = i.id ∧
      j.email = i.email ∧ j.mobile = i.mobile ∧ j.countryCode = i.countryCode := by
  obtain ⟨i, hi, rfl⟩ := Migrating.mem_forceReset.mp hj
  refine ⟨i, hi, ?_⟩
  split <;> exact ⟨rfl, rfl, rfl, rfl⟩

theorem copied_forceReset {chosen : Identity → Bool} {done : List UserRow}
    (h : ∀ i ∈ b.identities, Copied done i) :
    ∀ j ∈ (b.forceReset chosen).identities, Copied done j := by
  intro j hj
  obtain ⟨i, hi, -, he, hm, hc⟩ := handles_of_forceReset hj
  unfold Copied
  rw [he, hm, hc]
  exact h i hi

/-- **A forced reset keeps the invariant.** -/
theorem Faithful.forceReset (hb : Faithful lower newId us b) (chosen : Identity → Bool) :
    Faithful lower newId us (b.forceReset chosen) := by
  refine ⟨hb.kept, fun u hu k hk => ?_, hb.apart, fun i hi j hj hsame => ?_,
    copied_forceReset hb.copied, fun j hj => ?_, fun j hj => ?_⟩
  · obtain ⟨i, hi, hid, hmatch⟩ := hb.linked u hu k hk
    refine ⟨_, Migrating.mem_forceReset.mpr ⟨i, hi, rfl⟩, ?_, ?_⟩
    · split <;> exact hid
    · split <;> exact hmatch
  · obtain ⟨i', hi', hid, he, -⟩ := handles_of_forceReset hi
    obtain ⟨j', hj', hid', he', -⟩ := handles_of_forceReset hj
    have hsame' : sameEmail lower i' j' = true := by
      unfold sameEmail at hsame ⊢
      rwa [← he, ← he']
    refine Table.eq_of_key_eq hi hj ?_
    rw [hid, hid', hb.emails i' hi' j' hj' hsame']
  · obtain ⟨i, hi, -, -, hm, hc⟩ := handles_of_forceReset hj
    rw [hm, hc]
    exact hb.paired i hi
  · obtain ⟨i, hi, hid, -⟩ := handles_of_forceReset hj
    rw [hid]
    exact hb.drawn i hi

/-- A turn of the loop that succeeds. -/
theorem addLocal_eq_ok {u : UserRow} (h : b.addLocal lower newId now u = .ok b') :
    ∃ b₁, b.insert lower newId (u.identity now none none none) = .ok b₁ ∧
      b'.identities = b₁.identities ∧ b'.drawn = b₁.drawn ∧ b'.userRows = b.userRows ∧
        ∀ v, v ∈ b'.users ↔
          ∃ x ∈ b.users, (if x.id = u.id then x.linkedTo (newId b.drawn) else x) = v := by
  obtain ⟨b₁, hinsert, h⟩ := bind_eq_ok.mp h
  cases h
  obtain ⟨-, -, t, -, rfl⟩ := insert_eq_ok hinsert
  refine ⟨_, hinsert, rfl, rfl, ?_, fun v => ?_⟩
  · unfold Migrating.userRows Table.update
    rw [List.map_map]
    refine List.map_congr_left fun x _ => ?_
    rw [Function.comp_apply]
    split <;> rfl
  · have hmem := @Table.mem_update _ _ _ b.users v (fun x => decide (x.id = u.id))
      (LinkedUser.linkedTo (newId b.drawn)) fun _ => rfl
    simp only [decide_eq_true_eq] at hmem
    exact hmem

theorem Faithful.mem (hb : Faithful lower newId us b) {x : LinkedUser} (hx : x ∈ b.users) :
    x.toUserRow ∈ us := by
  rw [← hb.kept]
  exact List.mem_map_of_mem hx

/-- A user is found by its identifier. -/
theorem Faithful.toUserRow_eq (hb : Faithful lower newId us b) {x : LinkedUser} (hx : x ∈ b.users)
    {u : UserRow} (hu : u ∈ us) (hid : x.id = u.id) : x.toUserRow = u := by
  rw [← hb.kept] at hu
  obtain ⟨y, hy, rfl⟩ := List.mem_map.mp hu
  rw [Table.eq_of_key_eq hx hy hid]

/-- **A turn of the loop keeps the invariant.** -/
theorem Faithful.addLocal (hb : Faithful lower newId us b) {u : UserRow} (hu : u ∈ us)
    (hemail : u.email = none) (hmobile : u.mobile = none)
    (h : b.addLocal lower newId now u = .ok b') : Faithful lower newId us b' := by
  obtain ⟨b₁, hinsert, hids, hdrawn, hrows, hmem⟩ := addLocal_eq_ok h
  have hb₁ : Faithful lower newId us b₁ := hb.insert (.inl ⟨rfl, rfl⟩) rfl hinsert
  obtain ⟨-, -, t, hins, rfl⟩ := insert_eq_ok hinsert
  have hfresh : ∀ x ∈ b.users, x.identityId ≠ some (newId b.drawn) := by
    intro x hx hk
    obtain ⟨i, hi, hid, -⟩ := hb.linked x hx _ hk
    exact Table.insert?_fresh hins hi hid
  refine ⟨hrows.trans hb.kept, fun v hv k hk => ?_, fun v hv v' hv' k hk hk' => ?_, ?_, ?_, ?_, ?_⟩
  · obtain ⟨x, hx, rfl⟩ := (hmem v).mp hv
    rw [hids]
    by_cases hid : x.id = u.id
    · rw [if_pos hid] at hk ⊢
      refine ⟨_, (Table.mem_insert? hins).mpr (.inl rfl), Option.some.inj hk, ?_⟩
      change Matches lower x.toUserRow _
      rw [hb.toUserRow_eq hx hu hid]
      unfold Matches
      rw [hemail]
      exact ⟨rfl, hmobile.symm, fun hne => absurd hmobile hne⟩
    · rw [if_neg hid] at hk ⊢
      exact hb₁.linked x hx k hk
  · obtain ⟨x, hx, rfl⟩ := (hmem v).mp hv
    obtain ⟨y, hy, rfl⟩ := (hmem v').mp hv'
    -- the new identifier is that of no other user
    by_cases hxu : x.id = u.id
    · rw [if_pos hxu] at hk ⊢
      obtain rfl : newId b.drawn = k := Option.some.inj hk
      by_cases hyu : y.id = u.id
      · rw [if_pos hyu]
        rw [Table.eq_of_key_eq hx hy (hxu.trans hyu.symm)]
        exact .inl rfl
      · rw [if_neg hyu] at hk'
        exact absurd hk' (hfresh y hy)
    · rw [if_neg hxu] at hk ⊢
      by_cases hyu : y.id = u.id
      · rw [if_pos hyu] at hk'
        obtain rfl : newId b.drawn = k := Option.some.inj hk'
        exact absurd hk (hfresh x hx)
      · rw [if_neg hyu] at hk' ⊢
        exact hb.apart x hx y hy k hk hk'
  · rw [hids]
    exact hb₁.emails
  · rw [hids]
    exact hb₁.copied
  · rw [hids]
    exact hb₁.paired
  · rw [hids, hdrawn]
    exact hb₁.drawn

/-- **The loop keeps the invariant.** -/
theorem Faithful.addLocals {rows : List UserRow} (hb : Faithful lower newId us b)
    (hrows : ∀ u ∈ rows, u ∈ us ∧ u.email = none ∧ u.mobile = none)
    (h : rows.foldlM (fun b u => b.addLocal lower newId now u) b = .ok b') :
    Faithful lower newId us b' := by
  induction rows generalizing b with
  | nil =>
    cases h
    exact hb
  | cons u rows ih =>
    rw [List.foldlM_cons] at h
    obtain ⟨b₁, hadd, hrest⟩ := bind_eq_ok.mp h
    obtain ⟨hu, hemail, hmobile⟩ := hrows u List.mem_cons_self
    refine ih (hb.addLocal hu hemail hmobile hadd) ?_ hrest
    exact fun v hv => hrows v (List.mem_cons_of_mem u hv)

/-- The users that the loop is over have no handle. -/
theorem Faithful.locals (hb : Faithful lower newId us b) :
    ∀ u ∈ b.locals, u ∈ us ∧ u.email = none ∧ u.mobile = none := by
  intro u hu
  obtain ⟨x, hx, rfl⟩ := List.mem_map.mp hu
  obtain ⟨hmem, hnone⟩ := Table.mem_select.mp hx
  simp only [Bool.and_eq_true, Option.isNone_iff_eq_none] at hnone
  exact ⟨hb.mem hmem, hnone.1.2, hnone.2⟩

theorem mem_of_selectEmails {u : UserRow} (hu : u ∈ selectEmails lower us) :
    u ∈ us ∧ u.email ≠ none := by
  have hfound := List.mem_of_find?_eq_some (mem_distinctBy.mp hu)
  have hmem := List.mem_filter.mp ((perm_sortBy _ _).mem_iff.mp hfound)
  exact ⟨hmem.1, Option.isSome_iff_ne_none.mp hmem.2⟩

theorem mem_of_selectMobiles {u : UserRow} (hu : u ∈ selectMobiles us) :
    u ∈ us ∧ u.email = none ∧ u.mobile ≠ none := by
  have hfound := List.mem_of_find?_eq_some (mem_distinctBy.mp hu)
  have hmem := List.mem_filter.mp ((perm_sortBy _ _).mem_iff.mp hfound)
  rw [Bool.and_eq_true, Option.isNone_iff_eq_none, Option.isSome_iff_ne_none] at hmem
  exact hmem

theorem matches_of_joinsEmail {u : LinkedUser} {i : Identity} (h : joinsEmail lower u i = true) :
    Matches lower u.toUserRow i ∧ (i.email ≠ none ∨ i.mobile ≠ none) := by
  unfold joinsEmail at h
  split at h
  · rename_i e e' he he'
    refine ⟨?_, .inl (by rw [he']; exact Option.some_ne_none e')⟩
    unfold Matches
    rw [he]
    exact ⟨e', he', of_decide_eq_true h⟩
  · cases h

theorem matches_of_joinsMobile {u : LinkedUser} {i : Identity} (h : joinsMobile u i = true) :
    Matches lower u.toUserRow i ∧ (i.email ≠ none ∨ i.mobile ≠ none) := by
  simp only [joinsMobile, Bool.and_eq_true, Option.isNone_iff_eq_none, Option.isSome_iff_ne_none,
    decide_eq_true_eq] at h
  obtain ⟨⟨⟨⟨⟨⟨⟨-, hu⟩, -⟩, hi⟩, hmobile⟩, -⟩, hcode⟩, hsame⟩ := h
  refine ⟨?_, .inr hmobile⟩
  unfold Matches
  rw [hu]
  exact ⟨hi, hsame, fun _ => hcode⟩

/-- The links by email keep the invariant. -/
theorem Faithful.linkEmails (hb : Faithful lower newId us b) :
    Faithful lower newId us (b.linkEmails lower) := by
  unfold Migrating.linkEmails
  apply Faithful.forceReset
  apply hb.link
  intro u i hjoin
  exact matches_of_joinsEmail hjoin

theorem Faithful.linkMobiles (hb : Faithful lower newId us b) :
    Faithful lower newId us b.linkMobiles := by
  unfold Migrating.linkMobiles
  apply Faithful.forceReset
  apply hb.link
  intro u i hjoin
  exact matches_of_joinsMobile hjoin

/-! ### Migration 16 -/

theorem ensureLinked_eq_ok :
    b.ensureLinked = .ok b' ↔ b' = b ∧ ∀ u ∈ b.users, u.identityId ≠ none := by
  unfold Migrating.ensureLinked
  split
  · rename_i hzero
    have hall := Table.affected_eq_zero.mp hzero
    constructor
    · rintro ⟨⟩
      exact ⟨rfl, fun u hu hnone => by simpa [hnone] using hall u hu⟩
    · rintro ⟨rfl, -⟩
      rfl
  · rename_i orphans hsome
    constructor
    · rintro ⟨⟩
    · rintro ⟨-, hall⟩
      have hpos : 0 < b.users.affected fun u => u.identityId.isNone := by omega
      obtain ⟨u, hu, hnone⟩ := Table.affected_pos.mp hpos
      exact absurd (Option.isNone_iff_eq_none.mp hnone) (hall u hu)

/-- **A backfill that succeeds**, statement by statement. -/
theorem backfill_eq_ok : backfill lower newId now b = .ok b' ↔
    ∃ b₁, b.insertAll lower newId (fun u => u.identity now u.email u.mobile u.countryCode)
        (selectEmails lower b.userRows) = .ok b₁ ∧
      ∃ b₂, (b₁.linkEmails lower).insertAll lower newId
          (fun u => u.identity now none u.mobile u.countryCode)
          (selectMobiles (b₁.linkEmails lower).userRows) = .ok b₂ ∧
        b₂.linkMobiles.locals.foldlM (fun b u => b.addLocal lower newId now u) b₂.linkMobiles =
            .ok b' ∧
          ∀ u ∈ b'.users, u.identityId ≠ none := by
  unfold backfill
  rw [bind_eq_ok]
  refine exists_congr fun b₁ => and_congr_right fun _ => ?_
  rw [bind_eq_ok]
  refine exists_congr fun b₂ => and_congr_right fun _ => ?_
  rw [bind_eq_ok]
  constructor
  · rintro ⟨b₃, hlocals, hend⟩
    obtain ⟨rfl, hall⟩ := ensureLinked_eq_ok.mp hend
    exact ⟨hlocals, hall⟩
  · rintro ⟨hlocals, hall⟩
    exact ⟨b', hlocals, ensureLinked_eq_ok.mpr ⟨rfl, hall⟩⟩

/-- The invariant before the first statement. -/
theorem Faithful.start (lower : String → String) (newId : Nat → Uuid) (users : UserTable) :
    Faithful lower newId users.rows ⟨users.addIdentityId, ∅, 0⟩ := by
  have hnone : ∀ u ∈ users.addIdentityId, u.identityId = none := by
    intro u hu
    obtain ⟨x, -, rfl⟩ := List.mem_map.mp hu
    rfl
  refine ⟨?_, fun u hu k hk => ?_, fun u hu v _ k hk _ => ?_, ?_, ?_, ?_, ?_⟩
  · unfold Migrating.userRows UserTable.addIdentityId
    rw [List.map_map]
    exact List.map_id _
  · rw [hnone u hu] at hk
    cases hk
  · rw [hnone u hu] at hk
    cases hk
  all_goals
    intro i hi
    exact absurd hi (Table.not_mem_empty i)

/-- **Migration 16 keeps the invariant.** -/
theorem backfill_faithful (hb : Faithful lower newId us b)
    (h : backfill lower newId now b = .ok b') :
    Faithful lower newId us b' ∧ ∀ u ∈ b'.users, u.identityId ≠ none := by
  obtain ⟨b₁, hemails, b₂, hmobiles, hlocals, hall⟩ := backfill_eq_ok.mp h
  rw [hb.kept] at hemails
  have hb₁ : Faithful lower newId us b₁ := by
    refine hb.insertAll (fun u hu k => ?_) (fun u k => rfl) hemails
    exact .inr ⟨u, (mem_of_selectEmails hu).1, rfl, rfl, rfl⟩
  rw [hb₁.linkEmails.kept] at hmobiles
  have hb₂ : Faithful lower newId us b₂ := by
    refine hb₁.linkEmails.insertAll (fun u hu k => ?_) (fun u k => rfl) hmobiles
    obtain ⟨hu, hemail, -⟩ := mem_of_selectMobiles hu
    exact .inr ⟨u, hu, hemail.symm, rfl, rfl⟩
  exact ⟨hb₂.linkMobiles.addLocals hb₂.linkMobiles.locals hlocals, hall⟩

/-! ### Migration 17 -/

/-- **Migration 17 succeeds** when every link has its identity, no user is without one, and no
identity is linked twice in a tenant. -/
theorem constrain_eq_ok : constrain b = .ok b' ↔ b' = b ∧
    (∀ u ∈ b.users, ∀ k, u.identityId = some k → ∃ i ∈ b.identities, i.id = k) ∧
    (∀ u ∈ b.users, u.identityId ≠ none) ∧
    (b.users.rows.map fun u => (u.tenantId, u.identityId)).Nodup := by
  unfold constrain
  split
  · -- The constraints are added one after the other, and the first that fails stops the migration.
    rename_i hforeign
    obtain ⟨u, hu, hany⟩ := List.any_eq_true.mp hforeign
    obtain ⟨k, hk, hnot⟩ := (Option.any_eq_true _ _).mp hany
    constructor
    · rintro ⟨⟩
    · rintro ⟨-, hlinked, -⟩
      obtain ⟨i, hi, hid⟩ := hlinked u hu k hk
      rw [Bool.not_eq_true', List.any_eq_false] at hnot
      exact absurd (decide_eq_true hid) (hnot i hi)
  · rename_i hforeign
    have hlinked : ∀ u ∈ b.users, ∀ k, u.identityId = some k → ∃ i ∈ b.identities, i.id = k := by
      intro u hu k hk
      by_contra hnone
      refine hforeign (List.any_eq_true.mpr ⟨u, hu, ?_⟩)
      refine (Option.any_eq_true _ _).mpr ⟨k, hk, ?_⟩
      rw [Bool.not_eq_true', List.any_eq_false]
      intro i hi hid
      exact hnone ⟨i, hi, of_decide_eq_true hid⟩
    split
    · rename_i hnull
      obtain ⟨u, hu, hnone⟩ := List.any_eq_true.mp hnull
      constructor
      · rintro ⟨⟩
      · rintro ⟨-, -, hall, -⟩
        exact absurd (Option.isNone_iff_eq_none.mp hnone) (hall u hu)
    · rename_i hnull
      have hall : ∀ u ∈ b.users, u.identityId ≠ none := by
        intro u hu hnone
        exact hnull (List.any_eq_true.mpr ⟨u, hu, Option.isNone_iff_eq_none.mpr hnone⟩)
      split
      · rename_i hnodup
        constructor
        · rintro ⟨⟩
          exact ⟨rfl, hlinked, hall, hnodup⟩
        · rintro ⟨rfl, -⟩
          rfl
      · rename_i hnodup
        constructor
        · rintro ⟨⟩
        · rintro ⟨-, -, -, h⟩
          exact absurd h hnodup

/-- **The migrations succeed** when migration 16 does and its result meets the new constraints. -/
theorem migrate_eq_ok {users : UserTable} : migrate lower newId now users = .ok b' ↔
    backfill lower newId now ⟨users.addIdentityId, ∅, 0⟩ = .ok b' ∧ constrain b' = .ok b' := by
  unfold migrate
  rw [bind_eq_ok]
  constructor
  · rintro ⟨b₁, hbackfill, hconstrain⟩
    obtain ⟨rfl, -⟩ := constrain_eq_ok.mp hconstrain
    exact ⟨hbackfill, hconstrain⟩
  · rintro ⟨hbackfill, hconstrain⟩
    exact ⟨b', hbackfill, hconstrain⟩

/-- **After the migrations the users are preserved**, and the invariant holds. -/
theorem migrate_preserved {users : UserTable} (h : migrate lower newId now users = .ok b) :
    Faithful lower newId users.rows b ∧ Preserved lower users b := by
  obtain ⟨hbackfill, -⟩ := migrate_eq_ok.mp h
  obtain ⟨hb, hall⟩ := backfill_faithful (Faithful.start lower newId users) hbackfill
  refine ⟨hb, hb.kept, hall, fun u hu v hv hsame => ?_, fun u hu e he => ?_⟩
  · obtain ⟨k, hk⟩ := Option.ne_none_iff_exists'.mp (hall u hu)
    exact hb.apart u hu v hv k hk (hsame.symm.trans hk)
  · obtain ⟨k, hk⟩ := Option.ne_none_iff_exists'.mp (hall u hu)
    obtain ⟨i, hi, rfl, hmatch⟩ := hb.linked u hu k hk
    unfold Matches at hmatch
    rw [he] at hmatch
    exact ⟨i, hi, hk, hmatch⟩

end Statements

end Authrs
