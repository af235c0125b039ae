import BankVaults.InitSound

/-!
# Crashes during `Init`, and the `Unseal` that follows

From the moment the server's `Init` has answered, at every request of `Init` and so at
every point where a crash can cut it off, the key store holds a prefix of the server's
shares under `vault-unseal-0`, `vault-unseal-1`, ... and nothing under the names after
it, and the server is sealed with no share submitted. An `Unseal` started there reads the
prefix back in order and succeeds exactly when it reaches the threshold.
-/

namespace BankVaults

open Vault

/-! ## The state of the shares -/

/-- The first `j` of the `shares` are stored under their names, and nothing is stored
under the names `j` to `n`. -/
def Stored (shares : List String) (n j : Nat) (keys : String → Option String) : Prop :=
  ∀ i : Nat, (i < j → keys (unsealKeyForID i) = shares[i]?) ∧
    (j ≤ i → i ≤ n → keys (unsealKeyForID i) = none)

theorem Stored.set {S : List String} {n j : Nat} {keys : String → Option String} {k : String}
    (hs : Stored S n j keys) (hk : S[j]? = some k) :
    Stored S n (j + 1) (Function.update keys (unsealKeyForID j) (some k)) := fun i => by
  by_cases hij : i = j
  · subst hij
    exact ⟨fun _ => by simp [hk], fun h => absurd h (by omega)⟩
  · simp only [Function.update_apply, unsealKeyForID_eq_iff, Int.ofNat_inj, hij, if_false]
    exact ⟨fun h => (hs i).1 (by omega), fun h => (hs i).2 (by omega)⟩

theorem Stored.frame {S : List String} {n j : Nat} {keys : String → Option String} {key : String}
    (hs : Stored S n j keys) (hkey : ∀ i : Int, key ≠ unsealKeyForID i) (val : Option String) :
    Stored S n j (Function.update keys key val) := fun i => by
  simpa [Function.update_noteq (hkey i).symm] using hs i

/-- A sealed server holding `shares` with threshold `t`, to which the first `i` shares
have been submitted. -/
structure Unsealing (shares : List String) (t i : Nat) (s : Server) : Prop where
  initialized : s.initialized = true
  sealed : s.sealed = true
  shares_eq : s.shares = shares
  threshold_eq : s.threshold = t
  submitted_eq : s.submitted = shares.take i

/-- What holds at every point of `Init` once the server's `Init` has answered. -/
def AfterInit (shares : List String) (t n : Nat) (w : World) : Prop :=
  w.server.initialized = true → Unsealing shares t 0 w.server ∧ ∃ j ≤ n, Stored shares n j w.keys

/-! ## `Unseal` from a stored prefix -/

theorem Unsealing.unsealWith {S : List String} {t i : Nat} {s : Server} {k : String}
    (hs : Unsealing S t i s) (hS : S.Nodup) (hk : S[i]? = some k) :
    s.unsealWith k = if t ≤ i + 1 then (⟨false, 0⟩, { s with sealed := false, submitted := [] })
      else (⟨true, i + 1⟩, { s with submitted := S.take (i + 1) }) := by
  have hi : i < S.length := (List.getElem?_eq_some_iff.mp hk).1
  have hdrop : k ∈ S.drop i := List.getElem?_mem (by rw [List.getElem?_drop, Nat.add_zero, hk])
  have hfresh : k ∉ S.take i := fun hmem => by
    rw [← List.take_append_drop i S, List.Nodup, List.pairwise_append] at hS
    exact hS.2.2 k hmem k hdrop rfl
  have hlen : (S.take i).length = i := by rw [List.length_take]; omega
  simp only [Server.unsealWith, hs.shares_eq, hs.submitted_eq, hs.threshold_eq, hlen,
    List.getElem?_mem hk, hfresh, List.take_succ, hk, Option.toList_some]
  rfl

theorem Unsealing.next {S : List String} {t i : Nat} {s : Server} (hs : Unsealing S t i s) :
    Unsealing S t (i + 1) { s with submitted := S.take (i + 1) } :=
  ⟨hs.initialized, hs.sealed, hs.shares_eq, hs.threshold_eq, rfl⟩

def submissions (trace : List Req) : List String :=
  trace.filterMap fun r => match r with
    | .unseal key => some key
    | _ => none

theorem drop_take_cons {S : List String} {i m : Nat} {k : String} (hk : S[i]? = some k)
    (him : i < m) : (S.take m).drop i = k :: (S.take m).drop (i + 1) := by
  obtain ⟨hi, rfl⟩ := List.getElem?_eq_some_iff.mp hk
  rw [List.drop_eq_getElem_cons (by rw [List.length_take]; omega), List.getElem_take]

theorem unsealFrom_run {S : List String} {t n j : Nat} (hS : S.Nodup) (hjS : j ≤ S.length)
    (hjn : j ≤ n) :
    ∀ (fuel i : Nat) {w : World}, Unsealing S t i w.server → Stored S n j w.keys → i ≤ j → i < t →
      t ≤ i + fuel →
      (((unsealFrom fuel i).run World.answer w).outcome = .ok () ↔ t ≤ j) ∧
        submissions ((unsealFrom fuel i).run World.answer w).trace = ((S.take j).take t).drop i
  | 0, i, w, _, _, _, hit, hf => by omega
  | fuel + 1, i, w, hs, hst, hij, hit, hf => by
    rcases Nat.lt_or_eq_of_le hij with hij | rfl
    · obtain ⟨k, hk⟩ : ∃ k, S[i]? = some k := ⟨S[i], List.getElem?_eq_getElem (by omega)⟩
      have hkey : w.keys (unsealKeyForID i) = some k := ((hst i).1 hij).trans hk
      have hcons := drop_take_cons hk (m := min t j) (by omega)
      rw [List.take_take]
      simp only [unsealFrom, kvGet, sysUnseal, Prog.request, Prog.orError, Prog.bind_eq, Prog.call_bind,
        Prog.pure_bind, Prog.pure_eq, Prog.run_call, World.answer_kvGet, hkey,
        World.answer_unseal_sealed hs.initialized hs.sealed, hs.unsealWith hS hk]
      by_cases hlast : t ≤ i + 1
      · simp only [hlast, if_true]
        refine ⟨iff_of_true rfl (by omega), ?_⟩
        rw [hcons, List.drop_eq_nil_of_le (by rw [List.length_take]; omega)]
        rfl
      · have ih := unsealFrom_run hS hjS hjn fuel (i + 1) (w := w.withServer { w.server with submitted := S.take (i + 1) })
          hs.next hst (by omega) (by omega) (by omega)
        simp only [hlast, if_false, Bool.not_true, Bool.false_eq_true,
          show ((i : Int) + 1 == 0) = false by rw [beq_eq_false_iff_ne]; omega]
        rw [List.take_take] at ih
        exact ⟨ih.1, by rw [hcons, ← ih.2]; rfl⟩
    · have hkey : w.keys (unsealKeyForID i) = none := (hst i).2 (Nat.le_refl i) hjn
      simp only [unsealFrom, kvGet, sysUnseal, Prog.request, Prog.orError, Prog.bind_eq, Prog.call_bind,
        Prog.pure_bind, Prog.pure_eq, Prog.run_call, World.answer_kvGet, hkey, Prog.throw_eq,
        Prog.fail_bind, Prog.run_fail]
      refine ⟨iff_of_false (fun h => by cases h) (by omega), ?_⟩
      rw [List.drop_eq_nil_of_le (by simp only [List.length_take]; omega)]
      rfl

/-! ## `Init` keeps the prefix -/

theorem checkKeys_holds {I : World → Prop} (keys : List String) {w : World} (hw : I w) :
    (checkKeys keys).Holds World.answer I (fun _ w' => w' = w ∧ ∀ key ∈ keys, w.keys key = none) w := by
  induction keys with
  | nil => exact ⟨hw, rfl, by simp⟩
  | cons key keys ih =>
    simp only [checkKeys, List.forM_cons', checkKey, keyStoreNotFound, kvGet, Prog.request, Prog.bind_eq, Prog.call_bind, Prog.pure_bind]
    refine ⟨hw, ?_⟩
    rw [World.answer_kvGet]
    cases hk : w.keys key with
    | some val => exact hw
    | none =>
      simp only [Prog.pure_eq, Prog.pure_bind]
      exact ih.mono fun _ _ _ ⟨h1, h2⟩ => ⟨h1, by simpa [hk] using h2⟩

theorem storeUnsealKey_holds {S : List String} {t n j : Nat} {k : String} {w : World}
    (hs : Unsealing S t 0 w.server) (hst : Stored S n j w.keys) (hk : S[j]? = some k)
    (hlen : S.length ≤ n) :
    (storeUnsealKey (j, k)).Holds World.answer (AfterInit S t n)
      (fun _ w' => w'.server = w.server ∧ Stored S n (j + 1) w'.keys) w := by
  have hj : j < S.length := (List.getElem?_eq_some_iff.mp hk).1
  have hw : AfterInit S t n w := fun _ => ⟨hs, j, by omega, hst⟩
  refine Prog.Holds.tryCatch_fail ?_
  simp only [keyStoreSet, keyStoreNotFound, kvGet, kvSet, Prog.request, Prog.orError, Prog.bind_eq, Prog.call_bind, Prog.pure_bind, Prog.pure_eq]
  refine ⟨hw, ?_⟩
  rw [World.answer_kvGet, ((hst j).2 (Nat.le_refl j) (by omega))]
  dsimp only [Prog.pure_bind, ite_true]
  have hst' := hst.set hk
  exact ⟨hw, fun _ => ⟨hs, j + 1, by omega, hst'⟩, rfl, hst'⟩

theorem storeUnsealKeys_holds {S : List String} {t n : Nat} (hlen : S.length ≤ n) :
    ∀ (ks : List String) (j : Nat) {w : World}, S.drop j = ks → j ≤ S.length →
      Unsealing S t 0 w.server → Stored S n j w.keys →
      ((ks.enumFrom j).forM storeUnsealKey).Holds World.answer (AfterInit S t n)
        (fun _ w' => Stored S n S.length w'.keys) w
  | [], j, w, hdrop, hj, hs, hst => by
    obtain rfl : j = S.length := Nat.le_antisymm hj (List.drop_eq_nil_iff.mp hdrop)
    exact ⟨fun _ => ⟨hs, _, by omega, hst⟩, hst⟩
  | k :: ks, j, w, hdrop, _, hs, hst => by
    have hk : S[j]? = some k := by rw [← Nat.add_zero j, ← List.getElem?_drop, hdrop]; simp
    have hj : j < S.length := (List.getElem?_eq_some_iff.mp hk).1
    refine Prog.Holds.bind ((storeUnsealKey_holds hs hst hk hlen).mono fun _ w' _ ⟨hserver, hst'⟩ =>
      storeUnsealKeys_holds hlen ks (j + 1) ?_ hj (hserver ▸ hs) hst')
    rw [← List.tail_drop, hdrop]
    rfl

theorem initKeys_unseal (v : Vault) (hshares : 0 ≤ v.config.secretShares) {i : Nat}
    (hi : i ≤ v.config.secretShares.toNat) : unsealKeyForID i ∈ v.initKeys :=
  List.mem_cons_of_mem _ (List.mem_map.mpr ⟨i, List.mem_range.mpr (by omega), rfl⟩)

theorem init_holds (v : Vault) (fuel : Nat) {w : World} (hinit : w.server.initialized = false)
    (hthr : 1 ≤ v.config.secretThreshold) (hroot : v.config.initRootToken = "") :
    (v.init fuel).Holds World.answer (AfterInit (w.server.fresh.take v.config.secretShares.toNat)
      v.config.secretThreshold.toNat v.config.secretShares.toNat)
      (fun _ w' => Stored (w.server.fresh.take v.config.secretShares.toNat) v.config.secretShares.toNat
        (w.server.fresh.take v.config.secretShares.toNat).length w'.keys) w := by
  have hw : AfterInit (w.server.fresh.take v.config.secretShares.toNat) v.config.secretThreshold.toNat
      v.config.secretShares.toNat w := fun h => absurd h (by simp [hinit])
  have hshares := v.threshold_le
  unfold Vault.init sysInitStatus kvTest sysInit
  refine Prog.Holds.bind (Prog.Holds.orError (Prog.Holds.request (r := .initStatus) hw hw ?_) _)
  rintro a ⟨⟩
  simp only [hinit, Bool.false_eq_true, if_false, Prog.pure_eq, Prog.bind_eq, Prog.pure_bind]
  refine Prog.Holds.bind (Prog.Holds.orError (Prog.Holds.request (r := .kvTest testKey) hw hw ?_) _)
  rintro _ -
  refine Prog.Holds.bind ((checkKeys_holds _ hw).mono fun _ w' _ ⟨hw', habsent⟩ => ?_)
  subst w'
  have hstored : Stored (w.server.fresh.take v.config.secretShares.toNat) v.config.secretShares.toNat 0
      w.keys := fun i =>
    ⟨fun h => absurd h (Nat.not_lt_zero i), fun _ hi => habsent _ (initKeys_unseal v (by omega) hi)⟩
  have hs : Unsealing (w.server.fresh.take v.config.secretShares.toNat) v.config.secretThreshold.toNat 0
      (w.server.initWith ⟨v.config.secretShares, v.config.secretThreshold⟩).2 := ⟨rfl, rfl, rfl, rfl, rfl⟩
  have hlen : (w.server.fresh.take v.config.secretShares.toNat).length ≤ v.config.secretShares.toNat :=
    List.length_take_le _ _
  refine Prog.Holds.bind (Prog.Holds.orError (Prog.Holds.request (r := .init _) hw ?_ ?_) _)
  all_goals rw [World.answer_init_fresh hinit]
  · exact fun _ => ⟨hs, 0, Nat.zero_le _, hstored⟩
  rintro resp ⟨⟩
  refine Prog.Holds.bind ((storeUnsealKeys_holds hlen _ 0 (w := w.withServer _) rfl (Nat.zero_le _) hs hstored).mono
    fun _ w' hw' hdone => ?_)
  simp only [hroot, bne_self_eq_false, Bool.false_eq_true, if_false]
  split
  · refine Prog.Holds.tryCatch_fail (Prog.Holds.of_onlyIssues ?_ (keyStoreSet_issues _ _) hw' hdone)
    rintro r w (rfl | rfl) hw hst'
    · exact ⟨hw, hst'⟩
    · refine ⟨fun hi => ?_, hst'.frame (fun i => (unsealKeyForID_ne_rootTokenKey i).symm) _⟩
      obtain ⟨hs, j, hj, hst⟩ := hw hi
      exact ⟨hs, j, hj, hst.frame (fun i => (unsealKeyForID_ne_rootTokenKey i).symm) _⟩
  · exact ⟨hw', hdone⟩

/-! ## A crash, then `Unseal` -/

/-- Wherever `Init` stops after the server's `Init` has answered, by returning or by a
crash, the key store holds a prefix of the `SecretShares` shares, all of them once `Init`
has returned success, and an `Unseal` with enough rounds submits that prefix in order up
to the threshold, and succeeds exactly when the prefix reaches the threshold. -/
theorem unseal_after_init_crash (v : Vault) (fuel crash unsealFuel : Nat) (w : World)
    (hthr : 1 ≤ v.config.secretThreshold) (hroot : v.config.initRootToken = "")
    (hinit : w.server.initialized = false)
    (hfresh : v.config.secretShares.toNat ≤ w.server.fresh.length)
    (hnodup : (w.server.fresh.take v.config.secretShares.toNat).Nodup)
    (hdone : ((v.init fuel).runFor World.answer crash w).server.initialized = true)
    (hfuel : v.config.secretThreshold.toNat ≤ unsealFuel) :
    ∃ j ≤ v.config.secretShares.toNat,
      Stored (w.server.fresh.take v.config.secretShares.toNat) v.config.secretShares.toNat j
        ((v.init fuel).runFor World.answer crash w).keys ∧
      (((v.init fuel).run World.answer w).outcome = .ok () →
        ((v.init fuel).run World.answer w).trace.length ≤ crash → j = v.config.secretShares.toNat) ∧
      ((((Vault.unseal unsealFuel).run World.answer
          ((v.init fuel).runFor World.answer crash w)).outcome = .ok () ↔
        v.config.secretThreshold.toNat ≤ j) ∧
      submissions ((Vault.unseal unsealFuel).run World.answer
          ((v.init fuel).runFor World.answer crash w)).trace =
        ((w.server.fresh.take v.config.secretShares.toNat).take j).take v.config.secretThreshold.toNat) := by
  have hinv := init_holds v fuel hinit hthr hroot
  have hlen : (w.server.fresh.take v.config.secretShares.toNat).length = v.config.secretShares.toNat := by
    rw [List.length_take]; omega
  obtain ⟨hs, j, hj, hst⟩ := hinv.runFor crash hdone
  have hunseal := fun j (hj : j ≤ v.config.secretShares.toNat) hst =>
    unsealFrom_run hnodup (by omega) hj unsealFuel 0 hs hst (Nat.zero_le j) (by omega) (by omega)
  by_cases hend : ((v.init fuel).run World.answer w).outcome = .ok () ∧
      ((v.init fuel).run World.answer w).trace.length ≤ crash
  · -- `Init` returned before the crash point: every share is stored
    have hall := hinv.run_ok hend.1
    rw [← Prog.runFor_of_trace_le crash hend.2, hlen] at hall
    exact ⟨_, Nat.le_refl _, hall, fun _ _ => rfl, hunseal _ (Nat.le_refl _) hall⟩
  · exact ⟨j, hj, hst, fun hok hle => absurd ⟨hok, hle⟩ hend, hunseal j hj hst⟩

theorem unseal_after_init_crash_plain :
    ∃ j ≤ plainVault.config.secretShares.toNat,
      Stored (freshWorld.server.fresh.take plainVault.config.secretShares.toNat)
        plainVault.config.secretShares.toNat j ((plainVault.init 0).runFor World.answer 14 freshWorld).keys ∧
      (((plainVault.init 0).run World.answer freshWorld).outcome = .ok () →
        ((plainVault.init 0).run World.answer freshWorld).trace.length ≤ 14 →
          j = plainVault.config.secretShares.toNat) ∧
      ((((Vault.unseal 3).run World.answer
          ((plainVault.init 0).runFor World.answer 14 freshWorld)).outcome = .ok () ↔
        plainVault.config.secretThreshold.toNat ≤ j) ∧
      submissions ((Vault.unseal 3).run World.answer
          ((plainVault.init 0).runFor World.answer 14 freshWorld)).trace =
        ((freshWorld.server.fresh.take plainVault.config.secretShares.toNat).take j).take
          plainVault.config.secretThreshold.toNat) :=
  unseal_after_init_crash plainVault 0 14 3 freshWorld (by decide) rfl rfl (by decide) (by decide)
    (by decide) (by decide)

end BankVaults
