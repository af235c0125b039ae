import BankVaults.Concurrent
import BankVaults.ConfigureToken

/-!
# `Init` and `Unseal` side by side

The operator runs `Init`, `Unseal` and `Configure` against one key store and one server,
and several of its instances may run at once. Any number of these runs, taking steps in
any order, keep the key store in step with the server: a value under `vault-unseal-i` is
always the server's `i`-th share. So every key an `Unseal` run submits is a share of an
initialized server, one the server counts as valid.

Each run is followed by a view of what it has seen (`ShareView`). `ShareView.ok` says
what a run may ask from that view, and every `Init`, `Unseal` and `Configure` run keeps to it
whatever the answers. The world invariant then follows one request at a time.
-/

namespace BankVaults

open Vault

/-! ## What each run has seen -/

/-- The shares a run's server `Init` returned, and the last name and value it read from
the key store. -/
structure ShareView where
  shares : Option (List String)
  read : Option (String × String)

def ShareView.next (m : ShareView) : Event → ShareView
  | ⟨.init _, .ok resp⟩ => { m with shares := some resp.keys }
  | ⟨.kvGet key, .ok v⟩ => { m with read := some (key, v) }
  | _ => m

/-- A run may store a value under `vault-unseal-i` only if it is the `i`-th share its own
server `Init` returned, and may submit to `Unseal` only a value it read under some
`vault-unseal-i`. -/
def ShareView.ok (m : ShareView) : Req → Prop
  | .kvSet key val => ∀ i : Nat, key = unsealKeyForID i → ∃ ks, m.shares = some ks ∧ ks[i]? = some val
  | .unseal key => ∃ i : Nat, m.read = some (unsealKeyForID i, key)
  | _ => True

def Req.KeepsShares : Req → Prop
  | .init _ | .unseal _ => False
  | .kvSet key _ => ∀ i : Nat, key ≠ unsealKeyForID i
  | _ => True

theorem ShareView.ok_of_keepsShares {r : Req} (hr : r.KeepsShares) (m : ShareView) : m.ok r := by
  cases r <;> first | exact hr.elim | trivial | exact fun i hi => absurd hi (hr i)

theorem ShareView.next_shares {r : Req} (hr : ∀ req, r ≠ .init req) (m : ShareView) (x : Resp r) :
    (m.next ⟨r, x⟩).shares = m.shares := by
  cases r <;> first | exact absurd rfl (hr _) | rfl | cases x <;> rfl

theorem shares_frame {P : Req → Prop} (hP : ∀ r, P r → r.KeepsShares) {p : Prog α}
    (hp : p.OnlyIssues P) (m : ShareView) :
    p.Always ShareView.ok ShareView.next (fun _ m' => m'.shares = m.shares) m :=
  hp.always (fun m _ hr _ => ShareView.ok_of_keepsShares (hP _ hr) m)
    (fun m r x hr hm => (ShareView.next_shares (fun req he => by subst he; exact hP _ hr) m x).trans hm) rfl

/-! ## Each run keeps to its view -/

theorem keyStoreSet_sharesOk {key val : String} {S : Option (List String)}
    (hset : ∀ i : Nat, key = unsealKeyForID i → ∃ ks, S = some ks ∧ ks[i]? = some val)
    {m : ShareView} (hm : m.shares = S) :
    (keyStoreSet key val).Always ShareView.ok ShareView.next (fun _ m' => m'.shares = S) m := by
  refine ⟨trivial, fun (x : Except KvError String) => ?_⟩
  rcases x with (_ | _) | _
  · refine ⟨fun i hi => hm ▸ hset i hi, fun (y : Except String Unit) => ?_⟩
    cases y
    case error => trivial
    case ok => exact hm
  all_goals trivial

theorem storeUnsealKeys_sharesOk (keys : List String) {m : ShareView} (hm : m.shares = some keys) :
    (storeUnsealKeys keys).Always ShareView.ok ShareView.next (fun _ m' => m'.shares = some keys) m :=
  Prog.Always.forM (fun ⟨i, k⟩ hik _ hm => Prog.Always.tryCatch_fail <| keyStoreSet_sharesOk
    (fun n hn => ⟨keys, rfl, by
      rw [← Int.ofNat_inj.mp (unsealKeyForID_eq_iff.mp hn)]
      exact List.mem_enum_iff_getElem?.mp hik⟩) hm) hm

theorem init_sharesOk (v : Vault) (fuel : Nat) (m : ShareView) :
    (v.init fuel).Always ShareView.ok ShareView.next (fun _ _ => True) m := by
  unfold Vault.init
  refine Prog.Always.bind ((shares_frame (by rintro r rfl; trivial) ((Prog.onlyIssues_request_self _).orError _)
    m).mono fun initialized m1 _ => ?_)
  cases initialized
  case true => trivial
  simp only [Bool.false_eq_true, ite_false, Prog.bind_eq, Prog.pure_eq, Prog.pure_bind]
  refine Prog.Always.bind ((shares_frame (by rintro r rfl; trivial) ((Prog.onlyIssues_request_self _).orError _)
    m1).mono fun _ m2 _ => ?_)
  refine Prog.Always.bind ((shares_frame (by rintro r ⟨key, -, rfl⟩; trivial) (checkKeys_issues _) m2).mono
    fun _ m3 _ => ?_)
  refine Prog.Always.bind (Prog.Always.orError (Prog.Always.request trivial fun x => ?_) _)
  rintro resp rfl
  refine Prog.Always.bind ((storeUnsealKeys_sharesOk _ rfl).mono fun _ m4 hm4 => ?_)
  have store : ∀ m' : ShareView, ∀ y : String,
      (if v.config.storeRootToken = true then
        tryCatch (keyStoreSet rootTokenKey resp.rootToken) fun _ => (throw y : Prog Unit)
        else Prog.pure PUnit.unit).Always ShareView.ok ShareView.next (fun _ _ => True) m' := by
    intro m' y
    split
    · exact Prog.Always.tryCatch_fail ((keyStoreSet_sharesOk (S := m'.shares)
        (fun i hi => absurd hi.symm (unsealKeyForID_ne_rootTokenKey i)) rfl).mono fun _ _ _ => trivial)
    · trivial
  split
  · refine Prog.Always.bind ((shares_frame ?_ (setupInitRootToken_issues _ _ _) m4).mono fun _ m5 _ => store m5 _)
    rintro r (rfl | rfl | rfl | ⟨req, rfl⟩ | rfl) <;> trivial
  · exact store m4 _

theorem unsealFrom_sharesOk : ∀ (fuel i : Nat) (m : ShareView),
    (unsealFrom fuel i).Always ShareView.ok ShareView.next (fun _ _ => True) m
  | 0, _, _ => trivial
  | fuel + 1, i, m => by
    refine Prog.Always.bind (Prog.Always.orError (Prog.Always.request trivial fun x => ?_) _)
    rintro k rfl
    refine Prog.Always.bind (Prog.Always.orError (Prog.Always.request ⟨i, rfl⟩ fun x => ?_) _)
    rintro resp rfl
    simp only [Prog.bind_eq]
    split
    · trivial
    · split
      · trivial
      · exact unsealFrom_sharesOk fuel (i + 1) _

theorem configure_sharesOk (c : VaultConfig) (m : ShareView) :
    (configure c).Always ShareView.ok ShareView.next (fun _ _ => True) m :=
  (shares_frame (fun r hr => by
    rcases hr with rfl | ⟨_, rfl⟩ | hr
    · trivial
    · trivial
    · cases r <;> first | exact hr.elim | trivial) (configure_onlyIssues c) m).mono fun _ _ _ => trivial

/-! ## The key store in step with the server -/

/-- Every value stored under `vault-unseal-i` is the `i`-th share of an initialized server. -/
def StoreConsistent (w : World) : Prop :=
  ∀ (i : Nat) v, w.keys (unsealKeyForID i) = some v →
    w.server.initialized = true ∧ w.server.shares[i]? = some v

/-- What a run's view says of the world: the shares it holds are the server's, and a value
it read under `vault-unseal-i` is the server's `i`-th share. -/
structure ShareView.Sound (w : World) (m : ShareView) : Prop where
  shares : ∀ ks, m.shares = some ks → w.server.initialized = true ∧ w.server.shares = ks
  read : ∀ (i : Nat) v, m.read = some (unsealKeyForID i, v) →
    w.server.initialized = true ∧ w.server.shares[i]? = some v

theorem answer_shares (r : Req) {w : World} (hi : w.server.initialized = true) :
    (World.answer r w).2.server.initialized = true ∧ (World.answer r w).2.server.shares = w.server.shares := by
  refine ⟨World.answer_initialized r hi, ?_⟩
  cases r <;> simp only [World.answer, hi, if_true] <;> (try split) <;>
    (simp only [World.withServer_server]; try rw [World.unsealWith_frame])

theorem ShareView.Sound.frame {w w' : World} {m : ShareView} (hm : m.Sound w)
    (hw : w.server.initialized = true →
      w'.server.initialized = true ∧ w'.server.shares = w.server.shares) : m.Sound w' where
  shares ks hks := let ⟨hi, hs⟩ := hm.shares ks hks; ⟨(hw hi).1, (hw hi).2.trans hs⟩
  read i v hr := let ⟨hi, hs⟩ := hm.read i v hr; ⟨(hw hi).1, (hw hi).2 ▸ hs⟩

theorem ShareView.Sound.next {w : World} {m : ShareView} (hm : m.Sound w) (hw : StoreConsistent w)
    (r : Req) : (m.next ⟨r, (World.answer r w).1⟩).Sound (World.answer r w).2 := by
  cases r
  case init req =>
    cases hi : w.server.initialized
    · rw [World.answer_init_fresh hi]
      exact ⟨fun ks hks => ⟨rfl, Option.some.inj hks⟩,
        fun i v hr => absurd (hm.read i v hr).1 (by simp [hi])⟩
    · rw [show World.answer (.init req) w = (.error "Vault is already initialized", w) by
        simp [World.answer, hi]]
      exact hm
  case kvGet key =>
    rw [World.answer_kvGet]
    cases hk : w.keys key
    · exact hm
    · exact ⟨hm.shares, fun i v hr => by
        obtain ⟨rfl, rfl⟩ := Prod.mk.inj (Option.some.inj hr)
        exact hw i _ hk⟩
  all_goals exact hm.frame fun hi => answer_shares _ hi

theorem StoreConsistent.answer {w : World} (hw : StoreConsistent w) {m : ShareView} (hm : m.Sound w)
    {r : Req} (hr : m.ok r) : StoreConsistent (World.answer r w).2 := by
  by_cases hset : ∃ key val, r = .kvSet key val
  · obtain ⟨key, val, rfl⟩ := hset
    intro i v hv
    simp only [World.answer] at hv ⊢
    by_cases hkey : unsealKeyForID i = key
    · rw [hkey, Function.update_same] at hv
      obtain ⟨ks, hks, hval⟩ := hr i hkey.symm
      obtain ⟨hi, rfl⟩ := hm.shares ks hks
      exact ⟨hi, hval.trans hv⟩
    · rw [Function.update_noteq hkey] at hv
      exact hw i v hv
  · simp only [not_exists] at hset
    intro i v hv
    rw [World.answer_keys r w hset] at hv
    obtain ⟨hi, hs⟩ := hw i v hv
    exact ⟨(answer_shares r hi).1, (answer_shares r hi).2 ▸ hs⟩

/-! ## Every interleaving -/

def shareViewOf (i : Nat) (log : List (Nat × Event)) : ShareView :=
  log.foldl (fun m e => if e.1 = i then m.next e.2 else m) ⟨none, none⟩

theorem shareViewOf_snoc (i j : Nat) (log : List (Nat × Event)) (e : Event) :
    shareViewOf i (log ++ [(j, e)]) = if j = i then (shareViewOf i log).next e else shareViewOf i log := by
  simp [shareViewOf, List.foldl_append]

/-- What holds in every state of interleaved runs: each program keeps to `ShareView.ok`
from its view, every view is sound, and the key store is in step with the server. -/
structure SharesSafe (s : Sys World) : Prop where
  always : ∀ i (p : Prog Unit), s.progs[i]? = some p →
    p.Always ShareView.ok ShareView.next (fun _ _ => True) (shareViewOf i s.log)
  views : ∀ i, (shareViewOf i s.log).Sound s.world
  store : StoreConsistent s.world

theorem SharesSafe.step {s : Sys World} (hs : SharesSafe s) (i : Nat) : SharesSafe (s.step World.answer i) := by
  unfold Sys.step
  split
  next r k hp =>
    have hA := hs.always i _ hp
    have hi : i < s.progs.length := (List.getElem?_eq_some_iff.mp hp).1
    refine ⟨fun j p hj => ?_, fun j => ?_, hs.store.answer (hs.views i) hA.1⟩
    · rw [shareViewOf_snoc]
      by_cases hij : i = j
      · subst hij
        rw [List.getElem?_set_self hi] at hj
        cases hj
        simpa using hA.2 _
      · rw [List.getElem?_set_ne hij] at hj
        simpa [hij] using hs.always j p hj
    · rw [shareViewOf_snoc]
      by_cases hij : i = j
      · subst hij
        simpa using (hs.views i).next hs.store r
      · simpa [hij] using (hs.views j).frame fun hi => answer_shares r hi
  next => exact hs

theorem SharesSafe.interleave : ∀ (sched : List Nat) {s : Sys World}, SharesSafe s →
    SharesSafe (s.interleave World.answer sched)
  | [], _, hs => hs
  | i :: sched, _, hs => SharesSafe.interleave sched (hs.step i)

def Sys.operators (inits : List (Vault × Nat)) (unseals : List Nat) (configures : List VaultConfig)
    (w : World) : Sys World :=
  ⟨w, inits.map (fun r => r.1.init r.2) ++ unseals.map Vault.unseal ++ configures.map configure, []⟩

theorem SharesSafe.operators (inits : List (Vault × Nat)) (unseals : List Nat) (configures : List VaultConfig)
    {w : World} (hw : StoreConsistent w) : SharesSafe (Sys.operators inits unseals configures w) where
  always i p hp := by
    rcases List.mem_append.mp (List.getElem?_mem hp) with hp | hp
    · rcases List.mem_append.mp hp with hp | hp
      · obtain ⟨r, -, rfl⟩ := List.mem_map.mp hp
        exact init_sharesOk r.1 r.2 _
      · obtain ⟨fuel, -, rfl⟩ := List.mem_map.mp hp
        exact unsealFrom_sharesOk fuel 0 _
    · obtain ⟨c, -, rfl⟩ := List.mem_map.mp hp
      exact configure_sharesOk c _
  views _ := ⟨nofun, nofun⟩
  store := hw

/-- In any interleaving of any number of `Init`, `Unseal` and `Configure` runs against one
key store and one server, from a key store in step with the server (an empty one, say), the
key store stays in step: a value under `vault-unseal-i` is always the `i`-th share of the
initialized server. A run about to submit a key to `Unseal` submits one of the server's
shares. -/
theorem operators_keep_shares (inits : List (Vault × Nat)) (unseals : List Nat) (configures : List VaultConfig)
    (w : World) (hw : StoreConsistent w) (sched : List Nat) :
    StoreConsistent ((Sys.operators inits unseals configures w).interleave World.answer sched).world ∧
      ∀ i key, ((Sys.operators inits unseals configures w).interleave World.answer sched).nextReq i =
          some (.unseal key) →
        ((Sys.operators inits unseals configures w).interleave World.answer sched).world.server.initialized = true ∧
          key ∈ ((Sys.operators inits unseals configures w).interleave World.answer sched).world.server.shares := by
  have hs := (SharesSafe.operators inits unseals configures hw).interleave sched
  refine ⟨hs.store, fun i key hnext => ?_⟩
  obtain ⟨p, hp, hreq⟩ := Option.bind_eq_some.mp hnext
  cases p with
  | call r k =>
    simp only [Prog.nextReq, Option.some.injEq] at hreq
    subst hreq
    obtain ⟨n, hn⟩ := (hs.always i _ hp).1
    obtain ⟨hi, hshare⟩ := (hs.views i).read n key hn
    exact ⟨hi, List.getElem?_mem hshare⟩
  | _ => simp [Prog.nextReq] at hreq

theorem operators_keep_shares_fresh :
    StoreConsistent ((Sys.operators [(plainVault, 0)] [2, 2] [sampleConfig] freshWorld).interleave World.answer
        [3, 1, 0, 0, 0, 0, 0, 2, 1, 0, 0, 2]).world ∧
      ∀ i key, ((Sys.operators [(plainVault, 0)] [2, 2] [sampleConfig] freshWorld).interleave World.answer
          [3, 1, 0, 0, 0, 0, 0, 2, 1, 0, 0, 2]).nextReq i = some (.unseal key) →
        ((Sys.operators [(plainVault, 0)] [2, 2] [sampleConfig] freshWorld).interleave World.answer
          [3, 1, 0, 0, 0, 0, 0, 2, 1, 0, 0, 2]).world.server.initialized = true ∧
          key ∈ ((Sys.operators [(plainVault, 0)] [2, 2] [sampleConfig] freshWorld).interleave World.answer
            [3, 1, 0, 0, 0, 0, 0, 2, 1, 0, 0, 2]).world.server.shares :=
  operators_keep_shares _ _ _ freshWorld (fun _ _ h => nomatch h) _

end BankVaults
