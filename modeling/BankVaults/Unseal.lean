import BankVaults.InitSound
import Mathlib.Data.Finset.Card

/-!
# `Unseal` against any server

`Unseal` reads `vault-unseal-0`, `vault-unseal-1`, ... and submits each share it finds,
with no bound on the index. It stops all the same: a key store that holds entries under
finitely many names fails a `Get` of every other name, and the names the loop reads are
pairwise different (`unsealKeyForID_inj`), so at most `n` reads succeed when the store
holds `n` names, whatever the server answers. `Rounds` says what the events of one run
are, round by round; `unsealFrom_rounds` shows that every run with enough fuel has such
events, and the properties of `Unseal` are read off `Rounds`.
-/

namespace BankVaults

open Vault

/-! ## The events of `Unseal` -/

def reads : List Event → List String
  | [] => []
  | ⟨.kvGet key, _⟩ :: evs => key :: reads evs
  | _ :: evs => reads evs

def lastSubmission : List Event → Option (Except String SealStatusResponse)
  | [] => none
  | ⟨.unseal _, a⟩ :: evs => (lastSubmission evs).or (some a)
  | _ :: evs => lastSubmission evs

/-- Each share read is submitted right after it is read, once, and nothing else is asked:
the events are pairs of a `Get` that finds a share and the `Unseal` of that share, the last
possibly a `Get` that fails alone. -/
def SubmitsEachRead : List Event → Prop
  | [] => True
  | [⟨.kvGet _, .error _⟩] => True
  | ⟨.kvGet _, .ok share⟩ :: ⟨.unseal key, _⟩ :: evs => key = share ∧ SubmitsEachRead evs
  | _ => False

/-- The events and the outcome of the loop of `Unseal` from index `i` on, round by round.
A round reads `unsealKeyForID i`; a failed read ends the run with an error. A share read
is submitted; an error, an unsealed server or a progress of 0 ends the run, with success
only for the unsealed server; a sealed server with progress goes on to index `i + 1`. -/
inductive Rounds : Nat → List Event → Outcome Unit → Prop
  | readFails {i : Nat} {e : KvError} {err : String} :
      Rounds i [⟨.kvGet (unsealKeyForID i), Except.error e⟩] (.error err)
  | submitFails {i : Nat} {share e err : String} :
      Rounds i [⟨.kvGet (unsealKeyForID i), Except.ok share⟩, ⟨.unseal share, Except.error e⟩] (.error err)
  | unsealed {i : Nat} {share : String} {resp : SealStatusResponse} (hs : resp.sealed = false) :
      Rounds i [⟨.kvGet (unsealKeyForID i), Except.ok share⟩, ⟨.unseal share, Except.ok resp⟩] (.ok ())
  | reset {i : Nat} {share err : String} {resp : SealStatusResponse} (hs : resp.sealed = true)
      (hp : resp.progress = 0) :
      Rounds i [⟨.kvGet (unsealKeyForID i), Except.ok share⟩, ⟨.unseal share, Except.ok resp⟩] (.error err)
  | next {i : Nat} {share : String} {resp : SealStatusResponse} {evs : List Event} {o : Outcome Unit}
      (hs : resp.sealed = true) (hp : resp.progress ≠ 0) (hrest : Rounds (i + 1) evs o) :
      Rounds i (⟨.kvGet (unsealKeyForID i), Except.ok share⟩ :: ⟨.unseal share, Except.ok resp⟩ :: evs) o

namespace Rounds

variable {i : Nat} {evs : List Event} {o : Outcome Unit}

theorem returns (hr : Rounds i evs o) : o = .ok () ∨ ∃ err, o = .error err := by
  induction hr with
  | unsealed => exact .inl rfl
  | next _ _ _ ih => exact ih
  | _ => exact .inr ⟨_, rfl⟩

theorem reads_eq (hr : Rounds i evs o) :
    reads evs = (List.range' i (reads evs).length).map fun j : Nat => unsealKeyForID j := by
  induction hr with
  | next _ _ _ ih => simp only [reads, List.length_cons, List.range'_succ, List.map_cons, ← ih]
  | _ => rfl

theorem submitsEachRead (hr : Rounds i evs o) : SubmitsEachRead evs := by
  induction hr with
  | next _ _ _ ih => exact ⟨rfl, ih⟩
  | readFails => trivial
  | _ => exact ⟨rfl, trivial⟩

theorem ok_iff (hr : Rounds i evs o) :
    o = .ok () ↔ ∃ resp, lastSubmission evs = some (.ok resp) ∧ resp.sealed = false := by
  induction hr with
  | readFails => simp [lastSubmission]
  | submitFails => simp [lastSubmission]
  | unsealed hs => simpa [lastSubmission] using hs
  | reset hs => simp [lastSubmission, hs]
  | @next _ _ _ evs _ hs _ _ ih =>
    rw [ih]
    cases hl : lastSubmission evs with
    | none => simp [lastSubmission, hl, hs]
    | some a => simp [lastSubmission, hl]

end Rounds

/-! ## Every run of `Unseal` with enough fuel -/

section
variable {W : Type} (h : (r : Req) → W → Resp r × W)

/-- A key store that, in every world `I` admits, holds entries under the names `stored`
only: a `Get` of another name fails. `Get` and `Unseal` keep to `I`, whatever the server
answers. -/
structure FiniteStore (stored : Finset String) (I : W → Prop) : Prop where
  miss : ∀ w key, I w → key ∉ stored → ∃ e, (h (.kvGet key) w).1 = .error e
  get_inv : ∀ w key, I w → I (h (.kvGet key) w).2
  unseal_inv : ∀ w key, I w → I (h (.unseal key) w).2

variable {h} {stored : Finset String} {I : W → Prop}

theorem le_card_of_stored {i : Nat} (hsub : ∀ j < i, unsealKeyForID j ∈ stored) : i ≤ stored.card :=
  calc i = ((Finset.range i).image fun j : Nat => unsealKeyForID j).card := by
        rw [Finset.card_image_of_injective _ fun a b hab => by exact_mod_cast unsealKeyForID_inj hab,
          Finset.card_range]
    _ ≤ stored.card := Finset.card_le_card fun k hk => by
        obtain ⟨j, hj, rfl⟩ := Finset.mem_image.mp hk
        exact hsub j (Finset.mem_range.mp hj)

theorem unsealFrom_rounds (hs : FiniteStore h stored I) :
    ∀ (fuel fuel' i : Nat) {w : W}, I w → (∀ j < i, unsealKeyForID j ∈ stored) →
      stored.card + 1 ≤ i + fuel → stored.card + 1 ≤ i + fuel' →
      Rounds i ((unsealFrom fuel i).events h w) ((unsealFrom fuel i).run h w).outcome ∧
        i + (reads ((unsealFrom fuel i).events h w)).length ≤ stored.card + 1 ∧
        (unsealFrom fuel' i).run h w = (unsealFrom fuel i).run h w ∧
        (unsealFrom fuel' i).events h w = (unsealFrom fuel i).events h w
  | 0, _, _, _, _, hsub, hf, _ | _, 0, _, _, _, hsub, _, hf => absurd (le_card_of_stored hsub) (by omega)
  | fuel + 1, fuel' + 1, i, w, hw, hsub, hf, hf' => by
    have hi := le_card_of_stored hsub
    simp only [unsealFrom, kvGet, sysUnseal, Prog.request, Prog.orError, Prog.bind_eq, Prog.call_bind,
      Prog.pure_bind, Prog.pure_eq, Prog.run_call, Prog.events]
    rcases hget : (h (.kvGet (unsealKeyForID i)) w).1 with e | share
    · exact ⟨.readFails, Nat.succ_le_succ hi, rfl, rfl⟩
    have hmem : unsealKeyForID i ∈ stored := Decidable.byContradiction fun hn =>
      let ⟨_, he⟩ := hs.miss w _ hw hn
      nomatch he.symm.trans hget
    have hw₁ := hs.get_inv w (unsealKeyForID i) hw
    simp only [Prog.pure_bind, Prog.run_call, Prog.events]
    rcases hun : (h (.unseal share) (h (.kvGet (unsealKeyForID i)) w).2).1 with e | resp
    · exact ⟨.submitFails, Nat.succ_le_succ hi, rfl, rfl⟩
    cases hsealed : resp.sealed
    · simp only [Prog.pure_bind, hsealed, Bool.not_false, if_true]
      exact ⟨.unsealed hsealed, Nat.succ_le_succ hi, trivial, trivial⟩
    by_cases hp : resp.progress = 0
    · simp only [Prog.pure_bind, hsealed, hp, Bool.not_true, Bool.false_eq_true, if_false, beq_self_eq_true, if_true]
      exact ⟨.reset hsealed hp, Nat.succ_le_succ hi, rfl, rfl⟩
    simp only [Prog.pure_bind, hsealed, beq_false_of_ne hp, Bool.not_true, Bool.false_eq_true, if_false]
    obtain ⟨hr, hlen, hrun, hev⟩ := unsealFrom_rounds hs fuel fuel' (i + 1) (hs.unseal_inv _ share hw₁)
      (fun j hj => (Nat.lt_succ_iff_lt_or_eq.mp hj).elim (hsub j) fun e => e ▸ hmem) (by omega) (by omega)
    refine ⟨.next hsealed hp hr, ?_, by rw [hrun], by rw [hev]⟩
    simp only [reads, List.length_cons] at hlen ⊢
    omega

/-- What the run of `Unseal` with `fuel` rounds from `w` does, beside a key store that
holds the names `stored`. -/
structure UnsealStops (h : (r : Req) → W → Resp r × W) (stored : Finset String) (w : W) (fuel : Nat) :
    Prop where
  same_run : (Vault.unseal fuel).run h w = (Vault.unseal (stored.card + 1)).run h w
  same_events : (Vault.unseal fuel).events h w = (Vault.unseal (stored.card + 1)).events h w
  returns : ((Vault.unseal fuel).run h w).outcome = .ok () ∨
    ∃ err, ((Vault.unseal fuel).run h w).outcome = .error err
  reads_le : (reads ((Vault.unseal fuel).events h w)).length ≤ stored.card + 1
  reads_in_turn : reads ((Vault.unseal fuel).events h w) =
    (List.range (reads ((Vault.unseal fuel).events h w)).length).map fun j : Nat => unsealKeyForID j
  submits : SubmitsEachRead ((Vault.unseal fuel).events h w)
  ok_iff : ((Vault.unseal fuel).run h w).outcome = .ok () ↔
    ∃ resp, lastSubmission ((Vault.unseal fuel).events h w) = some (.ok resp) ∧ resp.sealed = false

/-- Beside a key store that holds `n` names, whatever the server answers, `Unseal` stops
after at most `n + 1` reads, of `vault-unseal-0`, `vault-unseal-1`, ... in turn; it submits
each share it reads once, before the next read, and succeeds exactly when the last
submission found the server unsealed. -/
theorem unseal_terminates (hs : FiniteStore h stored I) {w : W} (hw : I w) (fuel : Nat)
    (hfuel : stored.card + 1 ≤ fuel) : UnsealStops h stored w fuel := by
  obtain ⟨hr, hlen, hrun, hev⟩ := unsealFrom_rounds hs fuel (stored.card + 1) 0 hw
    (fun _ h => absurd h (Nat.not_lt_zero _)) (by omega) (by omega)
  refine ⟨hrun.symm, hev.symm, hr.returns, (Nat.zero_add _).symm.trans_le hlen, ?_, hr.submitsEachRead,
    hr.ok_iff⟩
  rw [List.range_eq_range']
  exact hr.reads_eq

end

theorem finiteStore_answer (stored : Finset String) :
    FiniteStore World.answer stored fun w => ∀ key ∉ stored, w.keys key = none where
  miss w key hw hk := ⟨.notFound s!"key '{key}' not found", by rw [World.answer_kvGet, hw key hk]⟩
  get_inv w _ hw key hk := (congrFun (World.answer_keys _ w (by nofun)) key).trans (hw key hk)
  unseal_inv w _ hw key hk := (congrFun (World.answer_keys _ w (by nofun)) key).trans (hw key hk)

def sharesWorld : World :=
  { freshWorld with
    keys := fun k => if k = unsealKeyForID 0 then some "s0" else if k = unsealKeyForID 1 then some "s1" else none
    server := { freshWorld.server with initialized := true, shares := ["s0", "s1"], threshold := 2 } }

def sharesStored : Finset String := {unsealKeyForID 0, unsealKeyForID 1}

theorem unseal_terminates_shares : UnsealStops World.answer sharesStored sharesWorld 3 :=
  unseal_terminates (finiteStore_answer sharesStored) (fun key hk => by
    simp only [sharesStored, Finset.mem_insert, Finset.mem_singleton, not_or] at hk
    simp only [sharesWorld, hk.1, hk.2, if_false]) 3 (by decide)

/-! ## Against the threshold server

The server of `World.answer` counts the different valid shares submitted since its
progress was last reset: the `threshold`-th unseals it, an invalid or repeated share
resets the progress. On a sealed server with no progress, `Unseal` succeeds exactly when
the first `threshold` names of the key store hold that many different shares, whatever
else the store holds, and then the server is unsealed. -/

/-- `ks` are the values under `vault-unseal-0` to `vault-unseal-(t-1)`: `t` different
shares of the server. -/
def SharesOf (keys : String → Option String) (shares : List String) (t : Nat) (ks : List String) : Prop :=
  ks.length = t ∧ ks.Nodup ∧ (∀ k ∈ ks, k ∈ shares) ∧ ∀ i < t, keys (unsealKeyForID i) = ks[i]?

def ThresholdShares (keys : String → Option String) (shares : List String) (t : Nat) : Prop :=
  ∃ ks, SharesOf keys shares t ks

/-- A sealed server to which the shares `pre`, read from the first names of the key
store, have been submitted: different valid shares, fewer than the threshold. -/
structure Progress (keys : String → Option String) (s : Server) (pre : List String) : Prop where
  initialized : s.initialized = true
  sealed : s.sealed = true
  submitted_eq : s.submitted = pre
  lt_threshold : pre.length < s.threshold
  nodup : pre.Nodup
  valid : ∀ k ∈ pre, k ∈ s.shares
  read : ∀ j < pre.length, keys (unsealKeyForID j) = pre[j]?

theorem prefix_concat_of_getElem? {pre ks : List String} {k : String} (hp : pre <+: ks)
    (hk : ks[pre.length]? = some k) : pre ++ [k] <+: ks := by
  rw [List.prefix_iff_eq_take] at hp ⊢
  rw [List.length_append, List.length_singleton, List.take_succ, ← hp, hk]
  rfl

theorem read_concat {keys : String → Option String} {pre : List String} {k : String}
    (hread : ∀ j < pre.length, keys (unsealKeyForID j) = pre[j]?) (hk : keys (unsealKeyForID pre.length) = some k) :
    ∀ j < pre.length + 1, keys (unsealKeyForID j) = (pre ++ [k])[j]? := fun j hj => by
  rcases Nat.lt_succ_iff_lt_or_eq.mp hj with hj | rfl
  · rw [hread j hj, List.getElem?_append_left hj]
  · rw [hk, List.getElem?_concat_length]

theorem Progress.extend {keys : String → Option String} {s : Server} {pre : List String} {k : String}
    (hp : Progress keys s pre) (hv : k ∈ s.shares ∧ k ∉ pre) (hk : keys (unsealKeyForID pre.length) = some k) :
    (pre ++ [k]).Nodup ∧ (∀ x ∈ pre ++ [k], x ∈ s.shares) ∧
      ∀ j < pre.length + 1, keys (unsealKeyForID j) = (pre ++ [k])[j]? :=
  ⟨(List.perm_append_singleton k pre).nodup_iff.mpr (List.nodup_cons.mpr ⟨hv.2, hp.nodup⟩),
    fun x hx => (List.mem_append.mp hx).elim (hp.valid x) fun hx => List.mem_singleton.mp hx ▸ hv.1,
    read_concat hp.read hk⟩

theorem valid_of_sharesOf {keys : String → Option String} {shares pre ks : List String} {t : Nat} {k : String}
    (hp : pre <+: ks) (hks : SharesOf keys shares t ks) (hlt : pre.length < t)
    (hk : keys (unsealKeyForID pre.length) = some k) : pre ++ [k] <+: ks ∧ k ∈ shares ∧ k ∉ pre := by
  obtain ⟨hlen, hnodup, hvalid, hread⟩ := hks
  have hpk := prefix_concat_of_getElem? hp ((hread _ hlt).symm.trans hk)
  refine ⟨hpk, hvalid k (hpk.subset (List.mem_concat_self _ _)), fun hmem => ?_⟩
  exact (List.nodup_append.mp (hnodup.sublist hpk.sublist)).2.2 hmem (List.mem_singleton_self k)

theorem unsealFrom_threshold : ∀ (fuel : Nat) (pre : List String) {w : World}, Progress w.keys w.server pre →
    w.server.threshold ≤ pre.length + fuel →
    ((((unsealFrom fuel pre.length).run World.answer w).outcome = .ok () ↔
        ∃ ks, pre <+: ks ∧ SharesOf w.keys w.server.shares w.server.threshold ks) ∧
      (((unsealFrom fuel pre.length).run World.answer w).outcome = .ok () →
        ((unsealFrom fuel pre.length).run World.answer w).world.server.sealed = false) ∧
      (((unsealFrom fuel pre.length).run World.answer w).outcome = .ok () ∨
        ∃ err, ((unsealFrom fuel pre.length).run World.answer w).outcome = .error err))
  | 0, pre, w, hp, hf => absurd hp.lt_threshold (by omega)
  | fuel + 1, pre, w, hp, hf => by
    simp only [unsealFrom, kvGet, sysUnseal, Prog.request, Prog.orError, Prog.bind_eq, Prog.call_bind,
      Prog.pure_bind, Prog.pure_eq, Prog.run_call, World.answer_kvGet]
    cases hk : w.keys (unsealKeyForID pre.length) with
    | none =>
      simp only [Prog.throw_eq, Prog.fail_bind, Prog.run_fail]
      refine ⟨iff_of_false nofun fun ⟨ks, _, hlen, _, _, hread⟩ => ?_, nofun, .inr ⟨_, rfl⟩⟩
      have hlt : pre.length < ks.length := hlen ▸ hp.lt_threshold
      have hread := hread _ hp.lt_threshold
      rw [hk, List.getElem?_eq_getElem hlt] at hread
      cases hread
    | some k =>
      dsimp only
      simp only [Prog.pure_bind, Prog.call_bind, Prog.run_call, World.answer_unseal_sealed hp.initialized hp.sealed,
        Server.unsealWith, hp.submitted_eq]
      by_cases hv : k ∈ w.server.shares ∧ k ∉ pre
      · by_cases ht : w.server.threshold ≤ pre.length + 1
        · -- the last share: the server unseals
          simp only [if_pos hv, if_pos ht, Bool.not_false, if_true, Prog.run_pure]
          obtain ⟨hnodup, hvalid, hread⟩ := hp.extend hv hk
          have hlt := hp.lt_threshold
          exact ⟨iff_of_true trivial ⟨pre ++ [k], List.prefix_append _ _,
            by simp only [List.length_append, List.length_singleton]; omega, hnodup, hvalid,
            fun j hj => hread j (by omega)⟩, fun _ => rfl, .inl trivial⟩
        · -- a share short of the threshold: the loop goes on
          have hne : ((pre.length : Int) + 1 == 0) = false := by
            rw [beq_eq_false_iff_ne]
            omega
          simp only [if_pos hv, if_neg ht, Bool.not_true, Bool.false_eq_true, if_false, hne]
          obtain ⟨hnodup, hvalid, hread⟩ := hp.extend hv hk
          have ih := unsealFrom_threshold fuel (pre ++ [k]) (w := w.withServer { w.server with submitted := pre ++ [k] })
            ⟨hp.initialized, hp.sealed, rfl, by simp only [World.withServer_server, List.length_append, List.length_singleton]; omega,
              hnodup, hvalid, by simpa using hread⟩
            (by simp only [World.withServer_server, List.length_append, List.length_singleton]; omega)
          simp only [List.length_append, List.length_singleton, World.withServer_keys, World.withServer_server] at ih
          refine ⟨ih.1.trans ⟨fun ⟨ks, hpk, hks⟩ => ⟨ks, (List.prefix_append _ _).trans hpk, hks⟩,
            fun ⟨ks, hpre, hks⟩ => ⟨ks, (valid_of_sharesOf hpre hks hp.lt_threshold hk).1, hks⟩⟩, ih.2.1, ih.2.2⟩
      · -- an invalid or repeated share: the progress resets
        simp only [if_neg hv, Bool.not_true, Bool.false_eq_true, if_false, beq_self_eq_true, if_true, Prog.throw_eq,
          Prog.fail_bind, Prog.run_fail]
        refine ⟨iff_of_false nofun fun ⟨ks, hpre, hks⟩ => hv ?_, nofun, .inr ⟨_, rfl⟩⟩
        obtain ⟨-, hval, hnew⟩ := valid_of_sharesOf hpre hks hp.lt_threshold hk
        exact ⟨hval, hnew⟩

/-- What `Unseal` with `fuel` rounds does from `w`, against the threshold server. -/
structure UnsealsAt (w : World) (fuel : Nat) : Prop where
  ok_iff : ((Vault.unseal fuel).run World.answer w).outcome = .ok () ↔
    ThresholdShares w.keys w.server.shares w.server.threshold
  unsealed : ((Vault.unseal fuel).run World.answer w).outcome = .ok () →
    ((Vault.unseal fuel).run World.answer w).world.server.sealed = false
  returns : ((Vault.unseal fuel).run World.answer w).outcome = .ok () ∨
    ∃ err, ((Vault.unseal fuel).run World.answer w).outcome = .error err

/-- On an initialized, sealed server with no unseal progress and a threshold of at least
one, `Unseal` given as many rounds as the threshold succeeds exactly when `vault-unseal-0`
to `vault-unseal-(threshold-1)` hold that many different shares of the server, whatever
else the key store holds. It then leaves the server unsealed; otherwise it returns an
error. -/
theorem unseal_threshold {w : World} (hi : w.server.initialized = true) (hs : w.server.sealed = true)
    (hsub : w.server.submitted = []) (ht : 1 ≤ w.server.threshold) (fuel : Nat)
    (hfuel : w.server.threshold ≤ fuel) : UnsealsAt w fuel := by
  obtain ⟨hiff, hsealed, hret⟩ := unsealFrom_threshold fuel [] (w := w)
    ⟨hi, hs, hsub, ht, List.nodup_nil, nofun, nofun⟩ (by simpa using hfuel)
  exact ⟨hiff.trans ⟨fun ⟨ks, _, hks⟩ => ⟨ks, hks⟩, fun ⟨ks, hks⟩ => ⟨ks, List.nil_prefix, hks⟩⟩, hsealed, hret⟩

theorem unseal_threshold_shares : UnsealsAt sharesWorld 2 :=
  unseal_threshold rfl rfl rfl (by decide) 2 le_rfl

end BankVaults
