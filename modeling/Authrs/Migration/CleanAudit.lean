import Authrs.Migration.Faithful
import Authrs.Store.World

/-!
# The backfill after a clean audit

A clean audit leaves no handle in two tenants. The migrations then succeed exactly when the users can
be collapsed: no two users of one tenant have emails that differ in case only, which the old
constraint allows and the audit does not look for, and no user has half of a mobile number.

## Main definitions

* `Collapsible`: the users to which the migrations can do it

## Main results

* `AuditClean.eq_of_sharesHandle`: users that can be collapsed share no handle
* `insertAll_ok`, `addLocals_ok`: the inserts find no clash
* `backfill_ok`: migration 16 succeeds
* `migrate_preserves_iff`: the migrations preserve the users exactly when these can be collapsed
* `oneMailbox_fails`: two users of one tenant, with one email up to case
-/

namespace Authrs

open Relational

/-- **The users can be collapsed**: no email twice in a tenant up to case, and no half of a mobile
number. -/
structure Collapsible (lower : String → String) (users : UserTable) : Prop where
  emails : ∀ u ∈ users, ∀ v ∈ users, u.tenantId = v.tenantId → ∀ e e',
    u.email = some e → v.email = some e' → lower e = lower e' → u = v
  paired : ∀ u ∈ users, u.email ≠ none ∨ u.mobile ≠ none →
    u.mobile.isNone = u.countryCode.isNone

/-! ### The audit -/

section Audit

variable {lower : String → String} {users : UserTable} {u v : UserRow}

/-- A group in one tenant. -/
theorem tenant_eq_of_tenantCount (us : List UserRow) (h : ¬ 1 < tenantCount us) (hu : u ∈ us)
    (hv : v ∈ us) : u.tenantId = v.tenantId := by
  by_contra hne
  have hsub : [u.tenantId, v.tenantId].Subperm (us.map UserRow.tenantId).dedup := by
    refine List.subperm_of_subset (by simp [hne]) ?_
    intro t ht
    rw [List.mem_dedup]
    rcases List.mem_cons.mp ht with rfl | ht
    · exact List.mem_map_of_mem hu
    · rw [List.mem_singleton.mp ht]
      exact List.mem_map_of_mem hv
  exact h hsub.length_le

/-- **After a clean audit** users with one email up to case are in one tenant. -/
theorem AuditClean.emails (h : AuditClean lower users) (hu : u ∈ users) (hv : v ∈ users)
    {e e' : String} (he : u.email = some e) (he' : v.email = some e') (heq : lower e = lower e') :
    u.tenantId = v.tenantId := by
  refine tenant_eq_of_tenantCount (users.select fun x => x.email.map lower = some (lower e))
    ?_ (Table.mem_select.mpr ⟨hu, by simp [he]⟩) (Table.mem_select.mpr ⟨hv, by simp [he', heq]⟩)
  intro hcount
  have hmem : lower e ∈ conflictingEmails lower users := by
    refine List.mem_filter.mpr ⟨List.mem_dedup.mpr ?_, decide_eq_true hcount⟩
    exact List.mem_filterMap.mpr ⟨u, hu, by simp [he]⟩
  rw [h.1] at hmem
  cases hmem

/-- Users with one mobile number are in one tenant. -/
theorem AuditClean.mobiles (h : AuditClean lower users) (hu : u ∈ users) (hv : v ∈ users)
    (hmobile : u.mobile ≠ none) (hsame : u.mobile = v.mobile) (hcode : u.countryCode = v.countryCode) :
    u.tenantId = v.tenantId := by
  obtain ⟨m, hm⟩ := Option.ne_none_iff_exists'.mp hmobile
  refine tenant_eq_of_tenantCount (users.select fun x =>
    x.countryCode = u.countryCode && x.mobile = some m)
    ?_ (Table.mem_select.mpr ⟨hu, by simp [hm]⟩)
    (Table.mem_select.mpr ⟨hv, by simp [← hsame, ← hcode, hm]⟩)
  intro hcount
  have hmem : (u.countryCode, m) ∈ conflictingMobiles users := by
    refine List.mem_filter.mpr ⟨List.mem_dedup.mpr ?_, decide_eq_true hcount⟩
    exact List.mem_filterMap.mpr ⟨u, hu, by simp [hm]⟩
  rw [h.2] at hmem
  cases hmem

end Audit

/-! ### The migrations succeed only if the users can be collapsed -/

section Statements

variable {lower : String → String} {newId : Nat → Uuid} {now : Time} {us : List UserRow}
  {b b' : Migrating} {users : UserTable}

/-- The identity of a user with an email. -/
theorem Preserved.identity (hp : Preserved lower users b) {u : UserRow} (hu : u ∈ users) {e : String}
    (he : u.email = some e) : ∃ x ∈ b.users, x.toUserRow = u ∧
      ∃ i ∈ b.identities, x.identityId = some i.id ∧ ∃ e', i.email = some e' ∧ lower e' = lower e := by
  have hmem : u ∈ b.userRows := by
    rw [hp.kept]
    exact hu
  obtain ⟨x, hx, rfl⟩ := List.mem_map.mp hmem
  exact ⟨x, hx, rfl, hp.own x hx e he⟩

/-- **No email twice in a tenant**, up to case: the users would have one identity. -/
theorem emails_of_migrate (h : migrate lower newId now users = .ok b) {u v : UserRow}
    (hu : u ∈ users) (hv : v ∈ users) (htenant : u.tenantId = v.tenantId) {e e' : String}
    (he : u.email = some e) (he' : v.email = some e') (heq : lower e = lower e') : u = v := by
  obtain ⟨hb, hp⟩ := migrate_preserved h
  obtain ⟨-, -, -, hnodup⟩ := constrain_eq_ok.mp (migrate_eq_ok.mp h).2
  obtain ⟨x, hx, rfl, i, hi, hxi, f, hf, hfe⟩ := hp.identity hu he
  obtain ⟨y, hy, rfl, j, hj, hyj, f', hf', hfe'⟩ := hp.identity hv he'
  have hij : i = j := by
    refine hb.emails i hi j hj ?_
    unfold sameEmail
    rw [hf, hf']
    exact decide_eq_true (hfe.trans (heq.trans hfe'.symm))
  have hkey : (x.tenantId, x.identityId) = (y.tenantId, y.identityId) := by
    rw [htenant, hxi, hyj, hij]
  rw [List.inj_on_of_nodup_map hnodup hx hy hkey]

/-- **A mobile number is whole**: an identity was made of it. -/
theorem paired_of_migrate (hclean : AuditClean lower users)
    (h : migrate lower newId now users = .ok b) {u : UserRow} (hu : u ∈ users)
    (hhandle : u.email ≠ none ∨ u.mobile ≠ none) : u.mobile.isNone = u.countryCode.isNone := by
  obtain ⟨hb, hp⟩ := migrate_preserved h
  have hmem : u ∈ b.userRows := by
    rw [hp.kept]
    exact hu
  obtain ⟨x, hx, rfl⟩ := List.mem_map.mp hmem
  obtain ⟨k, hk⟩ := Option.ne_none_iff_exists'.mp (hp.linked x hx)
  obtain ⟨i, hi, -, hmatch⟩ := hb.linked x hx k hk
  have hpaired := hb.paired i hi
  unfold Matches at hmatch
  cases he : x.email with
  | none =>
    -- the identity has the mobile number of the user
    rw [he] at hmatch
    have hmobile : x.mobile ≠ none := hhandle.resolve_left fun hne => hne he
    rwa [hmatch.2.1, hmatch.2.2 hmobile] at hpaired
  | some e =>
    -- the identity copies a user with the same email, which is this one
    rw [he] at hmatch
    obtain ⟨e', he', hlower⟩ := hmatch
    rcases hb.copied i hi with ⟨hnone, -⟩ | ⟨v, hv, hemail, hmobile, hcode⟩
    · rw [hnone] at he'
      cases he'
    · have hve : v.email = some e' := hemail.symm.trans he'
      have htenant := hclean.emails hu hv he hve hlower.symm
      have hvu := emails_of_migrate h hu hv htenant he hve hlower.symm
      rw [hvu, ← hmobile, ← hcode]
      exact hpaired

/-! ### The inserts -/

/-- **Users that can be collapsed share no handle.** -/
theorem AuditClean.eq_of_sharesHandle (hclean : AuditClean lower users) (hvalid : UsersValid users)
    (hc : Collapsible lower users) {u v : UserRow} (hu : u ∈ users) (hv : v ∈ users)
    (h : SharesHandle lower u v) : u = v := by
  rcases h with ⟨e, e', he, he', heq⟩ | ⟨hmobile, hsame, hcode⟩
  · exact hc.emails u hu v hv (hclean.emails hu hv he he' heq) e e' he he' heq
  · have htenant := hclean.mobiles hu hv hmobile hsame hcode
    have hcc : u.countryCode ≠ none := by
      intro hnone
      have hpaired := hc.paired u hu (.inr hmobile)
      rw [hnone, Option.isNone_none, Option.isNone_iff_eq_none] at hpaired
      exact hmobile hpaired
    exact hvalid.mobileUnique u hu v hv htenant hmobile hcc hsame hcode

/-- **An insert succeeds**, when its mobile number is whole and it clashes with no identity. -/
theorem insert_ok {n : Nat} (hnew : Set.InjOn newId (Set.Iio n)) (hroom : b.drawn < n)
    (hb : Faithful lower newId us b) (row : Uuid → Identity) (hid : (row (newId b.drawn)).id = newId b.drawn)
    (hpair : (row (newId b.drawn)).mobile.isNone = (row (newId b.drawn)).countryCode.isNone)
    (hclash : ∀ i ∈ b.identities, sameEmail lower (row (newId b.drawn)) i = false ∧
      sameMobile (row (newId b.drawn)) i = false) :
    ∃ t, b.identities.insert? (row (newId b.drawn)) = some t ∧
      b.insert lower newId row = .ok { b with identities := t, drawn := b.drawn + 1 } := by
  have hfresh : ∀ i ∈ b.identities, i.id ≠ (row (newId b.drawn)).id := by
    intro i hi hsame
    obtain ⟨k, hk, hik⟩ := hb.drawn i hi
    have hkd : k = b.drawn := hnew (hk.trans hroom) hroom (hik.symm.trans (hsame.trans hid))
    omega
  obtain ⟨t, ht⟩ := Table.insert?_isSome hfresh
  refine ⟨t, ht, ?_⟩
  unfold Migrating.insert
  rw [if_neg (not_not.mpr hpair), ht]
  change (if _ then _ else if _ then _ else _) = _
  rw [if_neg, if_neg]
  · intro hany
    obtain ⟨i, hi, hsame⟩ := List.any_eq_true.mp hany
    rw [(hclash i hi).2] at hsame
    cases hsame
  · intro hany
    obtain ⟨i, hi, hsame⟩ := List.any_eq_true.mp hany
    rw [(hclash i hi).1] at hsame
    cases hsame

/-- A copy of a user clashes with no copy of users that it shares no handle with. -/
theorem not_clash_of_copied {u : UserRow} {done : List UserRow} {i j : Identity}
    (he : i.email = u.email) (hm : i.mobile = u.mobile) (hc : i.countryCode = u.countryCode)
    (hj : Copied done j) (hapart : ∀ v ∈ done, ¬ SharesHandle lower u v) :
    sameEmail lower i j = false ∧ sameMobile i j = false := by
  rcases hj with ⟨hje, hjm⟩ | ⟨v, hv, hje, hjm, hjc⟩
  · constructor
    · unfold sameEmail
      rw [hje]
      cases i.email <;> rfl
    · unfold sameMobile
      rw [hjm]
      cases i.mobile <;> simp
  · have hnot := hapart v hv
    constructor
    · unfold sameEmail
      rw [he, hje]
      cases hue : u.email with
      | none => rfl
      | some e =>
        cases hve : v.email with
        | none => rfl
        | some e' => exact decide_eq_false fun heq => hnot (.inl ⟨e, e', hue, hve, heq⟩)
    · refine Bool.eq_false_iff.mpr fun hsame => hnot (.inr ?_)
      unfold sameMobile at hsame
      simp only [Bool.and_eq_true, decide_eq_true_eq, Option.isSome_iff_ne_none] at hsame
      obtain ⟨⟨⟨hsome, -⟩, hmobile⟩, hcode⟩ := hsame
      rw [hm] at hsome hmobile
      exact ⟨hsome, hmobile.trans hjm, hc.symm.trans (hcode.trans hjc)⟩

/-- **Copies of users are inserted one after the other**, when no two of them share a handle, and
none of them one with a user copied before. -/
theorem insertAll_ok {n : Nat} (hnew : Set.InjOn newId (Set.Iio n))
    (rowOf : UserRow → Uuid → Identity) {rows done : List UserRow}
    (hroom : b.drawn + rows.length ≤ n) (hb : Faithful lower newId us b)
    (hrow : ∀ u ∈ rows, u ∈ us ∧ u.mobile.isNone = u.countryCode.isNone ∧ ∀ k,
      (rowOf u k).email = u.email ∧ (rowOf u k).mobile = u.mobile ∧
        (rowOf u k).countryCode = u.countryCode)
    (hid : ∀ u k, (rowOf u k).id = k)
    (hrows : rows.Pairwise fun u v => ¬ SharesHandle lower v u)
    (hdone : ∀ u ∈ rows, ∀ v ∈ done, ¬ SharesHandle lower u v)
    (hcopied : ∀ i ∈ b.identities, Copied done i) :
    ∃ b', b.insertAll lower newId rowOf rows = .ok b' ∧ b'.users = b.users ∧
      b'.drawn = b.drawn + rows.length ∧ (∀ i ∈ b.identities, i ∈ b'.identities) ∧
      (∀ i ∈ b'.identities, Copied (rows ++ done) i) ∧
      ∀ u ∈ rows, ∃ i ∈ b'.identities, i.email = u.email ∧ i.mobile = u.mobile ∧
        i.countryCode = u.countryCode := by
  unfold Migrating.insertAll
  induction rows generalizing b done with
  | nil =>
    exact ⟨b, rfl, rfl, rfl, fun i hi => hi, hcopied, fun u hu => absurd hu List.not_mem_nil⟩
  | cons u rows ih =>
    obtain ⟨hfirst, hrest⟩ := List.pairwise_cons.mp hrows
    obtain ⟨hu, hpair, hhandles⟩ := hrow u List.mem_cons_self
    obtain ⟨he, hm, hc⟩ := hhandles (newId b.drawn)
    rw [List.length_cons] at hroom ⊢
    obtain ⟨t, ht, hinsert⟩ := insert_ok hnew (by omega) hb (rowOf u) (hid u _) (by rw [hm, hc, hpair]) fun i hi =>
      not_clash_of_copied he hm hc (hcopied i hi) (hdone u List.mem_cons_self)
    have hmem : ∀ i, i ∈ t ↔ i = rowOf u (newId b.drawn) ∨ i ∈ b.identities :=
      fun i => Table.mem_insert? ht
    have hb₁ := hb.insert (.inr ⟨u, hu, he, hm, hc⟩) (hid u _) hinsert
    -- the other rows come after this one
    have hdone' : ∀ v ∈ rows, ∀ w ∈ u :: done, ¬ SharesHandle lower v w := by
      intro v hv w hw
      rcases List.mem_cons.mp hw with rfl | hw
      · exact hfirst v hv
      · exact hdone v (List.mem_cons_of_mem u hv) w hw
    have hcopied₁ : ∀ i ∈ t, Copied (u :: done) i := by
      intro i hi
      rcases (hmem i).mp hi with rfl | hi
      · exact .inr ⟨u, List.mem_cons_self, he, hm, hc⟩
      · rcases hcopied i hi with hnone | ⟨v, hv, hcopy⟩
        · exact .inl hnone
        · exact .inr ⟨v, List.mem_cons_of_mem u hv, hcopy⟩
    have hroom₁ : b.drawn + 1 + rows.length ≤ n := by omega
    obtain ⟨b', hall, husers, hdrawn, hold, hcopied', hnewRows⟩ := ih hroom₁ hb₁
      (fun v hv => hrow v (List.mem_cons_of_mem u hv)) hrest hdone' hcopied₁
    refine ⟨b', ?_, husers, ?_, fun i hi => hold i ((hmem i).mpr (.inr hi)), fun i hi => ?_,
      fun v hv => ?_⟩
    · rw [List.foldlM_cons]
      exact bind_eq_ok.mpr ⟨_, hinsert, hall⟩
    · have hnext : b'.drawn = b.drawn + 1 + rows.length := hdrawn
      omega
    · rcases hcopied' i hi with hnone | ⟨v, hv, hcopy⟩
      · exact .inl hnone
      · exact .inr ⟨v, List.perm_middle.mem_iff.mp hv, hcopy⟩
    · rcases List.mem_cons.mp hv with rfl | hv
      · exact ⟨_, hold _ ((hmem _).mpr (.inl rfl)), he, hm, hc⟩
      · exact hnewRows v hv

/-! ### Every user is linked -/

/-- A user that a link leaves alone. -/
theorem unlinked_of_link {joins : LinkedUser → Identity → Bool} {x : LinkedUser}
    (hx : x ∈ (b.link joins).users) (hnone : x.identityId = none) :
    x ∈ b.users ∧ ∀ i ∈ b.identities, joins x i = false := by
  obtain ⟨u, hu, rfl⟩ := Migrating.mem_link.mp hx
  unfold LinkedUser.joined at hnone ⊢
  cases hi : b.identities.selectOne (joins u) with
  | none => exact ⟨hu, Table.selectOne_eq_none.mp hi⟩
  | some i =>
    rw [hi] at hnone
    cases hnone

theorem unlinked_of_linkEmails {x : LinkedUser} (hx : x ∈ (b.linkEmails lower).users)
    (hnone : x.identityId = none) : x ∈ b.users ∧ ∀ i ∈ b.identities, joinsEmail lower x i = false :=
  unlinked_of_link hx hnone

theorem unlinked_of_linkMobiles {x : LinkedUser} (hx : x ∈ b.linkMobiles.users)
    (hnone : x.identityId = none) : x ∈ b.users ∧ ∀ i ∈ b.identities, joinsMobile x i = false :=
  unlinked_of_link hx hnone

/-- **The loop ends**, and the users that are left without an identity are not those it was over. -/
theorem addLocals_ok (now : Time) {n : Nat} (hnew : Set.InjOn newId (Set.Iio n)) {rows : List UserRow}
    (hroom : b.drawn + rows.length ≤ n) (hb : Faithful lower newId us b)
    (hrows : ∀ u ∈ rows, u ∈ us ∧ u.email = none ∧ u.mobile = none) :
    ∃ b', rows.foldlM (fun b u => b.addLocal lower newId now u) b = .ok b' ∧
      ∀ x ∈ b'.users, x.identityId = none → x ∈ b.users ∧ x.toUserRow ∉ rows := by
  induction rows generalizing b with
  | nil => exact ⟨b, rfl, fun x hx _ => ⟨hx, List.not_mem_nil⟩⟩
  | cons u rows ih =>
    obtain ⟨hu, hemail, hmobile⟩ := hrows u List.mem_cons_self
    rw [List.length_cons] at hroom
    obtain ⟨t, -, hinsert⟩ := insert_ok hnew (by omega) hb (u.identity now none none none)
      rfl rfl
      fun i _ => ⟨rfl, rfl⟩
    have hadd : b.addLocal lower newId now u = .ok _ := bind_eq_ok.mpr ⟨_, hinsert, rfl⟩
    obtain ⟨b', hall, hleft⟩ := ih (by change b.drawn + 1 + rows.length ≤ n; omega)
      (hb.addLocal hu hemail hmobile hadd)
      fun v hv => hrows v (List.mem_cons_of_mem u hv)
    refine ⟨b', ?_, fun x hx hnone => ?_⟩
    · rw [List.foldlM_cons]
      exact bind_eq_ok.mpr ⟨_, hadd, hall⟩
    · obtain ⟨hmem, hnot⟩ := hleft x hx hnone
      obtain ⟨-, -, -, -, -, husers⟩ := addLocal_eq_ok hadd
      obtain ⟨y, hy, rfl⟩ := (husers x).mp hmem
      by_cases hid : y.id = u.id
      · rw [if_pos hid] at hnone
        cases hnone
      · rw [if_neg hid] at hnot ⊢
        refine ⟨hy, fun hin => ?_⟩
        rcases List.mem_cons.mp hin with heq | hin
        · exact hid (congrArg UserRow.id heq)
        · exact hnot hin

/-- An email is among the selected ones, up to case. -/
theorem exists_selectEmails (lower : String → String) {u : UserRow} (hu : u ∈ us) {e : String} (he : u.email = some e) :
    ∃ v ∈ selectEmails lower us, ∃ e', v.email = some e' ∧ lower e' = lower e := by
  obtain ⟨v, hv, hkey⟩ := exists_mem_distinctBy (fun u => (u.email.map lower).getD "")
    (l := sortBy (fun u => -u.updatedAt) (us.filter fun u => u.email.isSome)) (x := u)
    ((perm_sortBy _ _).mem_iff.mpr (List.mem_filter.mpr ⟨hu, by rw [he]; rfl⟩))
  refine ⟨v, hv, ?_⟩
  obtain ⟨e', he'⟩ := Option.ne_none_iff_exists'.mp (mem_of_selectEmails hv).2
  rw [he, he'] at hkey
  exact ⟨e', he', hkey⟩

/-- A mobile number is among the selected ones. -/
theorem exists_selectMobiles {u : UserRow} (hu : u ∈ us) (he : u.email = none)
    (hm : u.mobile ≠ none) :
    ∃ v ∈ selectMobiles us, v.mobile = u.mobile ∧ v.countryCode = u.countryCode := by
  have hchosen : (u.email.isNone && u.mobile.isSome) = true := by
    rw [he, Option.isSome_iff_ne_none.mpr hm]
    rfl
  obtain ⟨v, hv, hkey⟩ := exists_mem_distinctBy mobileKey
    (l := sortBy (fun u => -u.updatedAt) (us.filter fun u => u.email.isNone && u.mobile.isSome))
    (x := u) ((perm_sortBy _ _).mem_iff.mpr (List.mem_filter.mpr ⟨hu, hchosen⟩))
  refine ⟨v, hv, ?_⟩
  obtain ⟨m, hm⟩ := Option.ne_none_iff_exists'.mp hm
  obtain ⟨m', hm'⟩ := Option.ne_none_iff_exists'.mp (mem_of_selectMobiles hv).2.2
  unfold mobileKey at hkey
  obtain ⟨hcode, hmobile⟩ := Prod.mk.inj (toLex.injective hkey)
  rw [hm, hm'] at hmobile ⊢
  refine ⟨congrArg some hmobile, ?_⟩
  cases hv' : v.countryCode <;> cases hu' : u.countryCode <;> rw [hv', hu'] at hcode
  · cases hcode
  · cases hcode
  · rw [WithTop.coe_inj.mp hcode]

/-! ### The migrations succeed -/

/-- The rows that a `DISTINCT ON` leaves are different users. -/
theorem pairwise_ne_distinctBy {κ : Type} [LinearOrder κ] (key : UserRow → κ) (rows : List UserRow) :
    (distinctBy key rows).Pairwise fun u v => u ≠ v :=
  (pairwise_distinctBy key rows).imp fun hlt heq => hlt.ne (congrArg key heq)

/-- **No more identities than users**: the three statements insert for different users. -/
theorem length_inserted_le (hb : Faithful lower newId users.rows b) :
    (selectEmails lower users.rows).length + (selectMobiles users.rows).length +
      b.locals.length ≤ users.rows.length := by
  have hlocals : b.locals.Nodup := by
    have hsub : b.locals.Sublist users.rows := by
      rw [← hb.kept]
      exact List.filter_sublist.map LinkedUser.toUserRow
    exact users.rows_nodup.sublist hsub
  have hnodup : (selectEmails lower users.rows ++ selectMobiles users.rows ++ b.locals).Nodup := by
    refine List.nodup_append.mpr ⟨List.nodup_append.mpr ⟨pairwise_ne_distinctBy _ _,
      pairwise_ne_distinctBy _ _, fun u hu v hv => ?_⟩, hlocals, fun u hu v hv => ?_⟩
    · rintro rfl
      exact (mem_of_selectEmails hu).2 (mem_of_selectMobiles hv).2.1
    · rintro rfl
      obtain ⟨-, hemail, hmobile⟩ := hb.locals u hv
      rcases List.mem_append.mp hu with hu | hu
      · exact (mem_of_selectEmails hu).2 hemail
      · exact (mem_of_selectMobiles hu).2.2 hmobile
  have hsub : selectEmails lower users.rows ++ selectMobiles users.rows ++ b.locals ⊆ users.rows := by
    intro u hu
    rcases List.mem_append.mp hu with hu | hu
    · rcases List.mem_append.mp hu with hu | hu
      · exact (mem_of_selectEmails hu).1
      · exact (mem_of_selectMobiles hu).1
    · exact (hb.locals u hu).1
  have hle := (List.subperm_of_subset hnodup hsub).length_le
  rwa [List.length_append, List.length_append] at hle

section Collapse

variable (now) {n : Nat} (hvalid : UsersValid users) (hclean : AuditClean lower users)
  (hc : Collapsible lower users)

include hvalid hclean hc

/-- Different users share no handle. -/
theorem not_sharesHandle {u v : UserRow} (hu : u ∈ users) (hv : v ∈ users) (hne : u ≠ v) :
    ¬ SharesHandle lower u v := fun hshare =>
  hne (hclean.eq_of_sharesHandle hvalid hc hu hv hshare)

/-- **A) succeeds**, and leaves without an identity only users without an email. -/
theorem insertEmails_ok (hnew : Set.InjOn newId (Set.Iio n))
    (hroom : b.drawn + (selectEmails lower users.rows).length ≤ n)
    (hb : Faithful lower newId users.rows b)
    (hempty : ∀ i ∈ b.identities, Copied [] i) :
    ∃ b', b.insertAll lower newId (fun u => u.identity now u.email u.mobile u.countryCode)
        (selectEmails lower users.rows) = .ok b' ∧
      b'.drawn = b.drawn + (selectEmails lower users.rows).length ∧
      (∀ i ∈ b'.identities, Copied (selectEmails lower users.rows) i) ∧
      ∀ x ∈ (b'.linkEmails lower).users, x.identityId = none → x.email = none := by
  have hrows : (selectEmails lower users.rows).Pairwise fun u v => ¬ SharesHandle lower v u := by
    refine (pairwise_ne_distinctBy _ _).imp_of_mem fun hu hv hne => ?_
    apply not_sharesHandle hvalid hclean hc (mem_of_selectEmails hv).1
      (mem_of_selectEmails hu).1 hne.symm
  obtain ⟨b', hall, husers, hdrawn, -, hcopied, hhave⟩ := insertAll_ok hnew
    (fun u => u.identity now u.email u.mobile u.countryCode) hroom hb
    (fun u hu => ⟨(mem_of_selectEmails hu).1,
      hc.paired u (mem_of_selectEmails hu).1 (.inl (mem_of_selectEmails hu).2),
      fun k => ⟨rfl, rfl, rfl⟩⟩)
    (fun u k => rfl) hrows (fun u _ v hv => absurd hv List.not_mem_nil) hempty
  rw [List.append_nil] at hcopied
  refine ⟨b', hall, hdrawn, hcopied, fun x hx hnone => ?_⟩
  obtain ⟨hmem, hjoins⟩ := unlinked_of_linkEmails hx hnone
  by_contra hemail
  obtain ⟨e, he⟩ := Option.ne_none_iff_exists'.mp hemail
  rw [husers] at hmem
  obtain ⟨u, hu, e', he', hlower⟩ := exists_selectEmails lower (hb.mem hmem) he
  obtain ⟨i, hi, hie, -, -⟩ := hhave u hu
  have hjoin := hjoins i hi
  unfold joinsEmail at hjoin
  rw [he, hie, he'] at hjoin
  exact of_decide_eq_false hjoin hlower

/-- **B) succeeds**, and leaves without an identity only users with an email or without a mobile
number. -/
theorem insertMobiles_ok (hnew : Set.InjOn newId (Set.Iio n))
    (hroom : b.drawn + (selectMobiles users.rows).length ≤ n)
    (hb : Faithful lower newId users.rows b)
    (hemails : ∀ i ∈ b.identities, Copied (selectEmails lower users.rows) i) :
    ∃ b', b.insertAll lower newId (fun u => u.identity now none u.mobile u.countryCode)
        (selectMobiles users.rows) = .ok b' ∧
      b'.drawn = b.drawn + (selectMobiles users.rows).length ∧
      ∀ x ∈ b'.linkMobiles.users, x.identityId = none →
        x ∈ b.users ∧ (x.email = none → x.mobile = none) := by
  have hrows : (selectMobiles users.rows).Pairwise fun u v => ¬ SharesHandle lower v u := by
    refine (pairwise_ne_distinctBy _ _).imp_of_mem fun hu hv hne => ?_
    apply not_sharesHandle hvalid hclean hc (mem_of_selectMobiles hv).1
      (mem_of_selectMobiles hu).1 hne.symm
  -- A mobile is taken from members without an email only, so none of them has an identity yet.
  have hdone : ∀ u ∈ selectMobiles users.rows, ∀ v ∈ selectEmails lower users.rows,
      ¬ SharesHandle lower u v := by
    intro u hu v hv
    obtain ⟨hu, hemail, -⟩ := mem_of_selectMobiles hu
    obtain ⟨hv, hemail'⟩ := mem_of_selectEmails hv
    apply not_sharesHandle hvalid hclean hc hu hv
    rintro rfl
    exact hemail' hemail
  obtain ⟨b', hall, husers, hdrawn, -, -, hhave⟩ := insertAll_ok hnew
    (fun u => u.identity now none u.mobile u.countryCode) hroom hb
    (fun u hu => ⟨(mem_of_selectMobiles hu).1,
      hc.paired u (mem_of_selectMobiles hu).1 (.inr (mem_of_selectMobiles hu).2.2),
      fun k => ⟨(mem_of_selectMobiles hu).2.1.symm, rfl, rfl⟩⟩)
    (fun u k => rfl) hrows hdone hemails
  refine ⟨b', hall, hdrawn, fun x hx hnone => ?_⟩
  obtain ⟨hmem, hjoins⟩ := unlinked_of_linkMobiles hx hnone
  rw [husers] at hmem
  refine ⟨hmem, fun hemail => ?_⟩
  by_contra hmobile
  obtain ⟨u, hu, hum, huc⟩ := exists_selectMobiles (hb.mem hmem) hemail hmobile
  obtain ⟨i, hi, hie, him, hic⟩ := hhave u hu
  -- The audit found no mobile without a country code, so the join finds the identity.
  have hcode : x.countryCode ≠ none := by
    intro hnone'
    have hpaired := hc.paired x.toUserRow (hb.mem hmem) (.inr hmobile)
    rw [hnone', Option.isNone_none, Option.isNone_iff_eq_none] at hpaired
    exact hmobile hpaired
  have hjoin : joinsMobile x i = true := by
    simp only [joinsMobile, Bool.and_eq_true, Option.isNone_iff_eq_none,
      Option.isSome_iff_ne_none, decide_eq_true_eq]
    rw [hie, him, hic, hum, huc]
    exact ⟨⟨⟨⟨⟨⟨⟨hnone, hemail⟩, hmobile⟩, (mem_of_selectMobiles hu).2.1⟩, hmobile⟩, hcode⟩, rfl⟩,
      rfl⟩
  rw [hjoins i hi] at hjoin
  cases hjoin

/-- **Migration 16 succeeds.** -/
theorem backfill_ok (hnew : Set.InjOn newId (Set.Iio users.rows.length)) :
    ∃ b, backfill lower newId now ⟨users.addIdentityId, ∅, 0⟩ = .ok b := by
  have hb := Faithful.start lower newId users
  have hroom := length_inserted_le hb
  obtain ⟨b₁, hinsert₁, hdrawn₁, hcopied, hleft₁⟩ := insertEmails_ok now hvalid hclean hc hnew
    (by change 0 + _ ≤ _; omega) hb fun i hi => absurd hi (Table.not_mem_empty i)
  have hb₁ : Faithful lower newId users.rows b₁ := by
    refine hb.insertAll (fun u hu k => ?_) (fun u k => rfl) hinsert₁
    exact .inr ⟨u, (mem_of_selectEmails hu).1, rfl, rfl, rfl⟩
  have hnext₁ : (b₁.linkEmails lower).drawn = (selectEmails lower users.rows).length :=
    hdrawn₁.trans (Nat.zero_add _)
  obtain ⟨b₂, hinsert₂, hdrawn₂, hleft₂⟩ := insertMobiles_ok now hvalid hclean hc hnew
    (by omega) hb₁.linkEmails (copied_forceReset hcopied)
  have hb₂ : Faithful lower newId users.rows b₂ := by
    refine hb₁.linkEmails.insertAll (fun u hu k => ?_) (fun u k => rfl) hinsert₂
    obtain ⟨hu, hemail, -⟩ := mem_of_selectMobiles hu
    exact .inr ⟨u, hu, hemail.symm, rfl, rfl⟩
  have hnext₂ : b₂.linkMobiles.drawn = b₂.drawn := rfl
  have hroom₂ := length_inserted_le hb₂.linkMobiles
  obtain ⟨b₃, hlocals, hleft₃⟩ := addLocals_ok now hnew (by omega) hb₂.linkMobiles
    hb₂.linkMobiles.locals
  refine ⟨b₃, backfill_eq_ok.mpr ⟨b₁, ?_, b₂, ?_, hlocals, fun x hx hnone => ?_⟩⟩
  · rw [hb.kept]
    exact hinsert₁
  · rw [hb₁.linkEmails.kept]
    exact hinsert₂
  · -- a user without an identity would be one that the loop is over
    obtain ⟨hmem, hnot⟩ := hleft₃ x hx hnone
    obtain ⟨hmem₁, hmobile⟩ := hleft₂ x hmem hnone
    have hemail := hleft₁ x hmem₁ hnone
    refine hnot (List.mem_map.mpr ⟨x, Table.mem_select.mpr ⟨hmem, ?_⟩, rfl⟩)
    rw [hnone, hemail, hmobile hemail]
    rfl

/-- **Migration 17 succeeds** after it. -/
theorem constrain_ok (hb : Faithful lower newId users.rows b)
    (hall : ∀ u ∈ b.users, u.identityId ≠ none) : constrain b = .ok b := by
  refine constrain_eq_ok.mpr ⟨rfl, fun u hu k hk => ?_, hall, ?_⟩
  · obtain ⟨i, hi, hid, -⟩ := hb.linked u hu k hk
    exact ⟨i, hi, hid⟩
  · refine List.Nodup.map_on (fun x hx y hy hkey => ?_) b.users.rows_nodup
    obtain ⟨k, hk⟩ := Option.ne_none_iff_exists'.mp (hall x hx)
    obtain ⟨-, hsame⟩ := Prod.mk.inj hkey
    rcases hb.apart x hx y hy k hk (hsame.symm.trans hk) with heq | hshare
    · exact heq
    · have hrow := hclean.eq_of_sharesHandle hvalid hc (hb.mem hx) (hb.mem hy) hshare
      exact Table.eq_of_key_eq hx hy (congrArg UserRow.id hrow)

end Collapse

/-- **After a clean audit, the migrations preserve the users exactly when these can be collapsed.** -/
theorem migrate_preserves_iff (hnew : Set.InjOn newId (Set.Iio users.rows.length)) (hvalid : UsersValid users)
    (hclean : AuditClean lower users) :
    (∃ b, migrate lower newId now users = .ok b ∧ Preserved lower users b) ↔
      Collapsible lower users := by
  constructor
  · rintro ⟨b, hmigrate, -⟩
    refine ⟨fun u hu v hv htenant e e' he he' heq => ?_, fun u hu hhandle => ?_⟩
    · exact emails_of_migrate hmigrate hu hv htenant he he' heq
    · exact paired_of_migrate hclean hmigrate hu hhandle
  · intro hc
    obtain ⟨b, hbackfill⟩ := backfill_ok now hvalid hclean hc hnew
    obtain ⟨hb, hall⟩ := backfill_faithful (Faithful.start lower newId users) hbackfill
    have hmigrate := migrate_eq_ok.mpr ⟨hbackfill, constrain_ok hvalid hclean hc hb hall⟩
    exact ⟨b, hmigrate, (migrate_preserved hmigrate).2⟩

end Statements

/-! ### Two tables -/

/-- A user to run the migrations on, with its handles and the defaults of the other columns. -/
def UserRow.handles (id : Nat) (tenantId : String) (email username mobile countryCode : Option String) :
    UserRow :=
  ⟨BitVec.ofNat 128 id, tenantId, none, none, email, username, mobile, countryCode, some "$1", false,
    0, none, id⟩

/-- Users with an email, with a mobile number alone, and with a name alone. -/
def collapsibleUsers : UserTable where
  rows := [
    .handles 1 "acme" (some "ann@acme.example") none (some "5550100") (some "+1"),
    .handles 2 "acme" (some "bob@acme.example") (some "bob") none none,
    .handles 3 "globex" none none (some "5550199") (some "+44"),
    .handles 4 "globex" none (some "dan") none none]
  nodup := by decide

/-- One mailbox twice in a tenant. -/
def oneMailbox : UserTable where
  rows := [
    .handles 1 "acme" (some "ann@acme.example") none none none,
    .handles 2 "acme" (some "Ann@acme.example") none none none]
  nodup := by decide

theorem injOn_ofNat {n : Nat} (hn : n < 2 ^ 128) : Set.InjOn (BitVec.ofNat 128) (Set.Iio n) := by
  intro j hj k hk heq
  have hj' : j < n := hj
  have hk' : k < n := hk
  have hval := congrArg BitVec.toNat heq
  rw [BitVec.toNat_ofNat, BitVec.toNat_ofNat, Nat.mod_eq_of_lt (by omega),
    Nat.mod_eq_of_lt (by omega)] at hval
  exact hval

theorem collapsibleUsers_collapsible : Collapsible World.offline.lower collapsibleUsers := by
  have hemails : ∀ u ∈ collapsibleUsers.rows, ∀ v ∈ collapsibleUsers.rows,
      u.tenantId = v.tenantId → u.email ≠ none →
        u.email.map World.offline.lower = v.email.map World.offline.lower → u = v := by
    decide +kernel
  have hpaired : ∀ u ∈ collapsibleUsers.rows, u.email ≠ none ∨ u.mobile ≠ none →
      u.mobile.isNone = u.countryCode.isNone := by
    decide +kernel
  refine ⟨fun u hu v hv htenant e e' he he' heq => ?_, hpaired⟩
  refine hemails u hu v hv htenant (by rw [he]; exact Option.some_ne_none e) ?_
  rw [he, he', Option.map_some, Option.map_some, heq]

theorem migrate_preserves_collapsibleUsers :
    ∃ b, migrate World.offline.lower (BitVec.ofNat 128) 0 collapsibleUsers = .ok b ∧
      Preserved World.offline.lower collapsibleUsers b :=
  (migrate_preserves_iff (injOn_ofNat (by decide)) (by decide +kernel)
    ⟨by decide +kernel, by decide +kernel⟩).mpr collapsibleUsers_collapsible

/-- **The migrations fail on one mailbox twice in a tenant**, which the audit does not report. -/
theorem oneMailbox_fails :
    ¬ ∀ (lower : String → String) (newId : Nat → Uuid) (now : Time) (users : UserTable),
      Set.InjOn newId (Set.Iio users.rows.length) → UsersValid users → AuditClean lower users →
        ∃ b, migrate lower newId now users = .ok b ∧ Preserved lower users b := by
  intro h
  obtain ⟨b, hmigrate, -⟩ := h World.offline.lower (BitVec.ofNat 128) 0 oneMailbox
    (injOn_ofNat (by decide)) (by decide +kernel) ⟨by decide +kernel, by decide +kernel⟩
  have hfails : (migrate World.offline.lower (BitVec.ofNat 128) 0 oneMailbox).toOption.isNone := by
    decide +kernel
  rw [hmigrate] at hfails
  cases hfails

end Authrs
