import BankVaults.Crash
import BankVaults.Unseal

/-!
# `Init`, then `Unseal`, on a fresh server

The bootstrap the operator runs. `Init` on a server that was never initialized, beside a
key store holding none of the names it checks, succeeds: it leaves the server's shares
under `vault-unseal-0`, `vault-unseal-1`, ... and, when asked to, the generated root token
under `vault-root`. The `Unseal` that follows submits the first `threshold` shares and
unseals the server. Each step of `Init` is shown to return (`Prog.Yields`), and the steps
are then composed.
-/

namespace BankVaults

open Vault

/-! ## Each step of `Init` returns -/

theorem checkKeys_yields (keys : List String) {w : World} (hk : ∀ key ∈ keys, w.keys key = none) :
    (checkKeys keys).Yields World.answer (fun _ w' => w' = w) w := by
  refine (Prog.Yields.forM (I := fun l w' => w' = w ∧ ∀ key ∈ l, w.keys key = none) (fun x xs w' ⟨hw', hall⟩ => ?_)
    ⟨rfl, hk⟩).mono fun _ _ h => h.1
  subst hw'
  simp only [checkKey, keyStoreNotFound, kvGet, Prog.request, Prog.bind_eq, Prog.call_bind, Prog.pure_bind]
  refine Prog.Yields.call ?_
  rw [World.answer_kvGet, hall x (.head _)]
  exact Prog.Yields.pure ⟨rfl, fun key hkey => hall key (.tail _ hkey)⟩

theorem keyStoreSet_yields {key val : String} {w : World} (hk : w.keys key = none) :
    (keyStoreSet key val).Yields World.answer
      (fun _ w' => w' = { w with keys := Function.update w.keys key (some val) }) w := by
  simp only [keyStoreSet, keyStoreNotFound, kvGet, kvSet, Prog.request, Prog.orError, Prog.bind_eq,
    Prog.call_bind, Prog.pure_bind, Prog.pure_eq]
  refine Prog.Yields.call ?_
  rw [World.answer_kvGet, hk]
  exact ⟨(), rfl, rfl⟩

theorem storeUnsealKeys_yields {S : List String} {n : Nat} (hlen : S.length ≤ n) :
    ∀ (ks : List String) (j : Nat) {w : World}, S.drop j = ks → j ≤ S.length → Stored S n j w.keys →
      w.keys rootTokenKey = none →
      ((ks.enumFrom j).forM storeUnsealKey).Yields World.answer
        (fun _ w' => w'.server = w.server ∧ Stored S n S.length w'.keys ∧ w'.keys rootTokenKey = none) w
  | [], j, w, hdrop, hj, hst, hroot => by
    obtain rfl : j = S.length := le_antisymm hj (List.drop_eq_nil_iff.mp hdrop)
    exact Prog.Yields.pure ⟨rfl, hst, hroot⟩
  | k :: ks, j, w, hdrop, _, hst, hroot => by
    have hk : S[j]? = some k := by rw [← Nat.add_zero j, ← List.getElem?_drop, hdrop, List.getElem?_cons_zero]
    have hj : j < S.length := (List.getElem?_eq_some_iff.mp hk).1
    refine Prog.Yields.bind ((Prog.Yields.tryCatch (keyStoreSet_yields ((hst j).2 le_rfl (by omega)))).mono
      fun _ w' hw' => ?_)
    subst hw'
    refine (storeUnsealKeys_yields hlen ks (j + 1) ?_ hj (hst.set hk) ?_).mono fun _ _ h => h
    · rw [← List.tail_drop, hdrop]
      rfl
    · exact (Function.update_noteq (unsealKeyForID_ne_rootTokenKey j).symm (some k) w.keys).trans hroot

/-! ## `Init` on a fresh server -/

/-- On a server that was never initialized, beside a key store holding none of the names
`Init` checks, `Init` without `InitRootToken` returns. It leaves the server initialized
with its first `SecretShares` fresh shares, those shares stored under their names, and
the generated root token under `vault-root` exactly when `StoreRootToken` asks for it. -/
theorem init_yields (v : Vault) (fuel : Nat) {w : World} (hthr : 1 ≤ v.config.secretThreshold)
    (hroot : v.config.initRootToken = "") (hinit : w.server.initialized = false)
    (hempty : ∀ key ∈ v.initKeys, w.keys key = none) :
    (v.init fuel).Yields World.answer (fun _ w' =>
      w'.server = (w.server.initWith ⟨v.config.secretShares, v.config.secretThreshold⟩).2 ∧
      Stored (w.server.fresh.take v.config.secretShares.toNat) v.config.secretShares.toNat
        (w.server.fresh.take v.config.secretShares.toNat).length w'.keys ∧
      w'.keys rootTokenKey = if v.config.storeRootToken then some w.server.freshRoot else none) w := by
  have hshares := v.threshold_le
  unfold Vault.init sysInitStatus kvTest sysInit
  refine Prog.Yields.bind (Prog.Yields.orError (Prog.Yields.request ⟨_, rfl, ?_⟩) _)
  simp only [World.answer, hinit, Bool.false_eq_true, if_false, Prog.bind_eq, Prog.pure_eq, Prog.pure_bind, hroot,
    bne_self_eq_false]
  refine Prog.Yields.bind (Prog.Yields.orError (Prog.Yields.request ⟨_, rfl, ?_⟩) _)
  refine Prog.Yields.bind ((checkKeys_yields _ hempty).mono fun _ w' hw' => ?_)
  subst hw'
  refine Prog.Yields.bind (Prog.Yields.orError (Prog.Yields.request ?_) _)
  rw [World.answer_init_fresh hinit]
  refine ⟨_, rfl, Prog.Yields.bind ((storeUnsealKeys_yields (List.length_take_le _ _) _ 0 
    (w := w'.withServer (w'.server.initWith ⟨v.config.secretShares, v.config.secretThreshold⟩).2)
    (List.drop_zero _) (Nat.zero_le _)
    (fun i => ⟨fun h => absurd h (Nat.not_lt_zero i), fun _ hi => hempty _ (initKeys_unseal v (by omega) hi)⟩)
    (hempty _ (List.mem_cons_self _ _))).mono fun _ w₁ ⟨hserver, hst, hroot₁⟩ => ?_)⟩
  cases hstore : v.config.storeRootToken
  · simp only [Bool.false_eq_true, if_false]
    exact Prog.Yields.pure ⟨hserver, hst, hroot₁⟩
  · simp only [if_true]
    refine (Prog.Yields.tryCatch (keyStoreSet_yields hroot₁)).mono fun _ w₂ hw₂ => ?_
    subst hw₂
    exact ⟨hserver, hst.frame (fun i => (unsealKeyForID_ne_rootTokenKey i).symm) _, Function.update_same rootTokenKey _ w₁.keys⟩

/-! ## The bootstrap -/

/-- What `Init` and then `Unseal` do from the world `w`. -/
structure Bootstrapped (v : Vault) (w : World) (fuel unsealFuel : Nat) : Prop where
  init_ok : ((v.init fuel).run World.answer w).outcome = .ok ()
  shares_stored : ∀ i < v.config.secretShares.toNat,
    ((v.init fuel).run World.answer w).world.keys (unsealKeyForID i) = w.server.fresh[i]?
  root_stored : ((v.init fuel).run World.answer w).world.keys rootTokenKey =
    if v.config.storeRootToken then some w.server.freshRoot else none
  unseal_ok : ((Vault.unseal unsealFuel).run World.answer ((v.init fuel).run World.answer w).world).outcome = .ok ()
  unsealed :
    ((Vault.unseal unsealFuel).run World.answer ((v.init fuel).run World.answer w).world).world.server.sealed = false

/-- On a server that was never initialized and hands out `SecretShares` different shares,
beside a key store holding none of the names `Init` checks, `Init` without
`InitRootToken` and with a threshold of at least one succeeds and stores the shares, and
the root token when asked to; an `Unseal` with as many rounds as the threshold then
succeeds and leaves the server unsealed. -/
theorem init_then_unseal (v : Vault) (fuel unsealFuel : Nat) (w : World)
    (hthr : 1 ≤ v.config.secretThreshold) (hroot : v.config.initRootToken = "")
    (hinit : w.server.initialized = false)
    (hfresh : v.config.secretShares.toNat ≤ w.server.fresh.length)
    (hnodup : (w.server.fresh.take v.config.secretShares.toNat).Nodup)
    (hempty : ∀ key ∈ v.initKeys, w.keys key = none)
    (hfuel : v.config.secretThreshold.toNat ≤ unsealFuel) : Bootstrapped v w fuel unsealFuel := by
  obtain ⟨⟨⟩, hok, hserver, hst, hrootkey⟩ := init_yields v fuel hthr hroot hinit hempty
  have hshares := v.threshold_le
  have hlen : (w.server.fresh.take v.config.secretShares.toNat).length = v.config.secretShares.toNat := by
    rw [List.length_take]
    omega
  have hprog : Progress ((v.init fuel).run World.answer w).world.keys ((v.init fuel).run World.answer w).world.server [] := by
    rw [hserver]
    exact ⟨rfl, rfl, rfl, by simp only [Server.initWith, List.length_nil]; omega, List.nodup_nil, nofun, nofun⟩
  obtain ⟨hiff, hsealed, -⟩ := unsealFrom_threshold unsealFuel [] hprog (by rw [hserver, List.length_nil, Nat.zero_add]; exact hfuel)
  have hread : ∀ i < v.config.secretShares.toNat,
      ((v.init fuel).run World.answer w).world.keys (unsealKeyForID i) =
        (w.server.fresh.take v.config.secretShares.toNat)[i]? := fun i hi => (hst i).1 (by omega)
  have hunseal := hiff.mpr ⟨(w.server.fresh.take v.config.secretShares.toNat).take v.config.secretThreshold.toNat,
    List.nil_prefix, ?_⟩
  · exact ⟨hok, fun i hi => (hread i hi).trans (List.getElem?_take_of_lt hi), hrootkey, hunseal, hsealed hunseal⟩
  rw [hserver]
  refine ⟨by rw [List.length_take]; simp only [Server.initWith]; omega, hnodup.sublist (List.take_sublist _ _),
    fun k hk => List.mem_of_mem_take hk, fun i hi => ?_⟩
  simp only [Server.initWith] at hi
  rw [hread i (by omega), List.getElem?_take_of_lt hi]

def fiveThreeVault : Vault := ⟨⟨5, 3, "", true⟩, by decide⟩

theorem init_then_unseal_five_three : Bootstrapped fiveThreeVault freshWorld 0 3 :=
  init_then_unseal fiveThreeVault 0 3 freshWorld (by decide) rfl rfl (by decide) (by decide)
    (fun _ _ => rfl) (by decide)

end BankVaults
