import BankVaults.World
import BankVaults.Bootstrap

/-!
# What `Init` does, whatever the key store and the server answer

Three laws of `Init` over every path: the value it stores under `vault-root`, when the
key-store pre-check lets it initialize the server, and when the wait for an unsealed
server ends. Each is followed by a run at an input where the code differs from its
specification.
-/

namespace BankVaults

open Vault

/-! ## The stored root token -/

def rootNext : Option String → Event → Option String
  | _, ⟨.init _, .ok resp⟩ => some resp.rootToken
  | m, _ => m

/-- A `Set` of `vault-root` must carry the root token the server generated. -/
def rootOk : Option String → Req → Prop
  | m, .kvSet key val => key = rootTokenKey → m = some val
  | _, _ => True

theorem rootNext_of_ne (hr : ∀ req, r ≠ .init req) (m : Option String) (x : Resp r) :
    rootNext m ⟨r, x⟩ = m := by
  cases r <;> first | rfl | exact absurd rfl (hr _)

theorem root_frame {P : Req → Prop} {m : Option String}
    (hP : ∀ r, P r → (∀ req, r ≠ .init req) ∧ rootOk m r) {p : Prog α} (hp : p.OnlyIssues P) :
    p.Always rootOk rootNext (fun _ m' => m' = m) m :=
  hp.always (fun _ r h hm => hm ▸ (hP r h).2)
    (fun _ r x h hm => (rootNext_of_ne (hP r h).1 _ x).trans hm) rfl

theorem root_frame_bind {P : Req → Prop} {m : Option String}
    (hP : ∀ r, P r → (∀ req, r ≠ .init req) ∧ rootOk m r) {p : Prog α} (hp : p.OnlyIssues P)
    {f : α → Prog β} {post : β → Option String → Prop} (hf : ∀ a, (f a).Always rootOk rootNext post m) :
    (p.bind f).Always rootOk rootNext post m :=
  Prog.Always.bind ((root_frame hP hp).mono fun a _ hm => hm ▸ hf a)

/-- Whatever the key store and the server answer, every `Set` of `vault-root` that `Init`
makes carries the root token the server's `Init` generated, also when `InitRootToken`
replaced it and the generated token was revoked. -/
theorem init_root_token_set (v : Vault) (fuel : Nat) :
    (v.init fuel).Always rootOk rootNext (fun _ _ => True) none := by
  unfold Vault.init
  refine root_frame_bind (by simp [rootOk]) ((Prog.onlyIssues_request_self _).orError _) fun initialized => ?_
  cases initialized
  case true => trivial
  simp only [Bool.false_eq_true, ite_false, Prog.bind_eq, Prog.pure_eq, Prog.pure_bind]
  refine root_frame_bind (by simp [rootOk]) ((Prog.onlyIssues_request_self _).orError _) fun _ => ?_
  refine root_frame_bind (by rintro r ⟨key, -, rfl⟩; simp [rootOk]) (checkKeys_issues _) fun _ => ?_
  refine Prog.Always.bind (Prog.Always.orError (Prog.Always.request trivial fun x => ?_) _)
  rintro resp rfl
  simp only [rootNext]
  refine root_frame_bind ?_ (storeUnsealKeys_issues _) fun _ => ?_
  · rintro r ⟨i, k, -, rfl | rfl⟩ <;> simp [rootOk, unsealKeyForID_ne_rootTokenKey]
  -- the `Set` of `vault-root`, with the generated token
  have store : ∀ y : String, (if v.config.storeRootToken = true then
      tryCatch (keyStoreSet rootTokenKey resp.rootToken) fun _ => (throw y : Prog Unit)
      else Prog.pure PUnit.unit).Always rootOk rootNext (fun _ _ => True) (some resp.rootToken) := by
    intro y
    split
    · refine Prog.Always.tryCatch_fail ((root_frame ?_ (keyStoreSet_issues _ _)).mono fun _ _ _ => trivial)
      rintro r (rfl | rfl) <;> simp [rootOk]
    · trivial
  split
  · refine root_frame_bind ?_ (setupInitRootToken_issues _ _ _) fun _ => store _
    rintro r (rfl | rfl | rfl | ⟨req, rfl⟩ | rfl) <;> simp [rootOk]
  · exact store _

/-- A fresh server that will hand out the shares `s0` to `s4` and the root token
`generated`, beside an empty key store. -/
def freshWorld : World :=
  ⟨fun _ => none, Server.new ["s0", "s1", "s2", "s3", "s4"] "generated" (· ++ "/"), "",
    ⟨fun _ => none, fun _ => "", fun _ n => ⟨List.range n, List.Perm.refl _⟩⟩, 0⟩

/-- The world, with the server unsealed by another process while `Init` waits. -/
def unsealedElsewhere : (r : Req) → World → Resp r × World
  | .sealStatus, w => (.ok ⟨false, 0⟩, w)
  | r, w => World.answer r w

def fixedRootVault : Vault := ⟨⟨5, 3, "fixed", true⟩, by decide⟩

/-- `Init` succeeds and leaves the revoked token `generated` under `vault-root`. -/
theorem init_stores_revoked_token :
    ((fixedRootVault.init 1).run unsealedElsewhere freshWorld).outcome = .ok () ∧
      ((fixedRootVault.init 1).run unsealedElsewhere freshWorld).world.keys rootTokenKey =
        some "generated" := by
  decide

/-! ## The key-store pre-check -/

/-- The world, with each key-store `Get` answered by `ans`. -/
def getsAnswered (ans : String → Except KvError String) : (r : Req) → World → Resp r × World
  | .kvGet key, w => (ans key, w)
  | r, w => World.answer r w

/-- The pre-check lets `Init` go on exactly when no checked name answers a value: a
`NotFound` and a back-end error both pass. -/
theorem checkKeys_passes (ans : String → Except KvError String) (keys : List String) (w : World) :
    ((checkKeys keys).run (getsAnswered ans) w).outcome = .ok () ↔
      ∀ key ∈ keys, ∀ val, ans key ≠ .ok val := by
  induction keys with
  | nil => simp [checkKeys]
  | cons key keys ih =>
    simp only [checkKeys, List.forM_cons', Prog.bind_eq, Prog.run_bind, run_checkKey] at ih ⊢
    rcases hk : ans key with (_ | _) | val <;> simp [getsAnswered, hk, ih]

def failsOnRoot (key : String) : Except KvError String :=
  if key = rootTokenKey then .error (.backend "backend unavailable") else .error (.notFound "")

def plainVault : Vault := ⟨⟨5, 3, "", false⟩, by decide⟩

def staleShareWorld : World :=
  { freshWorld with keys := fun k => if k = unsealKeyForID 5 then some "old" else none }

/-- A back-end error on `vault-root` does not stop `Init` from initializing the server, and a
value under `vault-unseal-5`, outside the names `Init` writes, does. -/
theorem init_precheck_diverges :
    ((plainVault.init 0).run (getsAnswered failsOnRoot) freshWorld).outcome = .ok () ∧
      ((plainVault.init 0).run (getsAnswered failsOnRoot) freshWorld).world.server.initialized ∧
      ((plainVault.init 0).run World.answer staleShareWorld).outcome =
        .error "error before init: keystore value for 'vault-unseal-5' already exists" ∧
      ((plainVault.init 0).run World.answer staleShareWorld).world.server.initialized = false := by
  decide

/-! ## Waiting for the server to be unsealed -/

/-- Whether the last seal-status query succeeded and reported the server sealed. -/
def statusNext : Bool → Event → Bool
  | _, ⟨.sealStatus, .ok resp⟩ => resp.sealed
  | _, ⟨.sealStatus, .error _⟩ => false
  | m, _ => m

def statusOk : Bool → Req → Prop
  | m, .createOrphan _ => m = false
  | _, _ => True

theorem waitUnsealed_exit (fuel : Nat) (m : Bool) :
    (waitUnsealed fuel).Always statusOk statusNext (fun _ m => m = false) m := by
  induction fuel generalizing m with
  | zero => trivial
  | succ fuel ih =>
    refine And.intro trivial fun (x : Except String SealStatusResponse) => ?_
    rcases x with _ | ⟨_ | _, _⟩
    all_goals first | rfl | exact And.intro trivial fun _ => ih _

/-- The wait ends after a status query that failed or reported the server unsealed, and
only then are the orphan token created and the temporary token revoked. -/
theorem setupInitRootToken_after_status (v : Vault) (fuel : Nat) (resp : InitResponse) :
    (v.setupInitRootToken fuel resp).Always statusOk statusNext (fun _ _ => True) true := by
  refine Prog.Always.bind ((waitUnsealed_exit fuel true).mono fun _ m hm => ?_)
  refine And.intro trivial fun _ => And.intro hm fun x => ?_
  rcases x with _ | _
  · trivial
  · exact And.intro trivial fun x => by rcases x with _ | _ <;> trivial

def statusFails : (r : Req) → World → Resp r × World
  | .sealStatus, w => (.error "connection refused", w)
  | r, w => World.answer r w

def fixedRootUnstored : Vault := ⟨⟨5, 3, "fixed", false⟩, by decide⟩

/-- With the server unreachable: after one failed status query `Init` creates the token
`fixed` and succeeds. -/
theorem init_creates_token_unreachable :
    ((fixedRootUnstored.init 1).run statusFails freshWorld).outcome = .ok () ∧
      (((fixedRootUnstored.init 1).run statusFails freshWorld).trace.filter fun q =>
        match q with | .sealStatus => true | _ => false).length = 1 ∧
      ((fixedRootUnstored.init 1).run statusFails freshWorld).trace.filterMap (fun q =>
        match q with | .createOrphan req => some req.id | _ => none) = ["fixed"] := by
  decide

end BankVaults
