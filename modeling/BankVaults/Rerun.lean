import BankVaults.ConfigureSound

/-!
# `Configure`, run a second time

Run again on the server it left, with the same configuration, key store, environment and
map orders, `Configure` succeeds, enables and mounts nothing, and leaves the server as
it was. The first run leaves every auth method and secret engine of the configuration in
place (`configure_settles`). The second then follows the first step by step (`Rerun`):
it skips the enables, tunes where the first mounted, and writes again the data, policies
and mount options the first wrote. This holds on a server that lists a mount made at `p`
under `p/`, the key the code looks up. Vault lists a mount made at `gh/` under `gh/`:
there the lookup of `gh//` misses, and the second run enables again.
-/

namespace BankVaults

open Vault

/-! ## A second run beside a first -/

section
variable {W : Type} (h : (r : Req) → W → Resp r × W) (S : W → W → Prop) (P : Req → Prop)

/-- When the first run, of `p` from `u`, ends with `a`, the second, of `q` from `v`, ends
with `a` too, in a world related to the first's, having made only requests `P`. -/
def Prog.SimFrom (u v : W) (p q : Prog α) : Prop :=
  ∀ a, (p.run h u).outcome = .ok a →
    (q.run h v).outcome = .ok a ∧ S (p.run h u).world (q.run h v).world ∧ ∀ r ∈ (q.run h v).trace, P r

def Prog.Sim (p q : Prog α) : Prop := ∀ u v, S u v → p.SimFrom h S P u v q

variable {h S P}

namespace Prog

theorem SimFrom.call {u v : W} {r r' : Req} {k : Resp r → Prog α} {k' : Resp r' → Prog α}
    (hr : P r') (hk : (k (h r u).1).SimFrom h S P (h r u).2 (h r' v).2 (k' (h r' v).1)) :
    (Prog.call r k).SimFrom h S P u v (.call r' k') := fun a ha => by
  obtain ⟨ho, hw, htr⟩ := hk a ha
  exact ⟨ho, hw, fun x hx => (List.mem_cons.mp hx).elim (· ▸ hr) (htr x)⟩

theorem SimFrom.left {u v : W} {r : Req} {k : Resp r → Prog α} {q : Prog α}
    (hk : (k (h r u).1).SimFrom h S P (h r u).2 v q) : (Prog.call r k).SimFrom h S P u v q := hk

theorem SimFrom.fail_left {u v : W} {q : Prog α} (e : String) : (Prog.fail e).SimFrom h S P u v q :=
  fun _ ha => nomatch ha

theorem SimFrom.panic_left {u v : W} {q : Prog α} (m : String) : (Prog.panic m).SimFrom h S P u v q :=
  fun _ ha => nomatch ha

theorem Sim.pure (a : α) : (Prog.pure a).Sim h S P (.pure a) := fun _ _ huv _ ha => by
  cases ha
  exact ⟨rfl, huv, nofun⟩

theorem Sim.bind {p q : Prog α} {f g : α → Prog β} (hp : p.Sim h S P q) (hf : ∀ a, (f a).Sim h S P (g a)) :
    (p.bind f).Sim h S P (q.bind g) := fun u v huv b hb => by
  obtain ⟨a, hpa, hfb, hw⟩ := ok_of_bind h hb
  obtain ⟨hqa, hS, htr⟩ := hp u v huv a hpa
  obtain ⟨hgb, hS', htr'⟩ := hf a _ _ hS b hfb
  rw [run_bind, hw]
  generalize q.run h v = r at hqa hS htr hgb hS' htr' ⊢
  obtain ⟨o, v', tr⟩ := r
  cases hqa
  exact ⟨hgb, hS', fun x hx => (List.mem_append.mp hx).elim (htr x) (htr' x)⟩

theorem Sim.tryCatch_fail {p q : Prog α} {g : String → String} (hp : p.Sim h S P q) :
    (p.tryCatch fun e => .fail (g e)).Sim h S P (q.tryCatch fun e => .fail (g e)) := fun u v huv a ha => by
  obtain ⟨hpa, hw⟩ := ok_of_tryCatch_fail h ha
  obtain ⟨hqa, hS, htr⟩ := hp u v huv a hpa
  rw [hw, run_tryCatch]
  generalize q.run h v = r at hqa hS htr ⊢
  obtain ⟨o, v', tr⟩ := r
  cases hqa
  exact ⟨rfl, hS, htr⟩

theorem Sim.withDefer {p q : Prog α} {d : Prog Unit} (hp : p.Sim h S P q) (hd : d.Sim h S P d) :
    (p.withDefer d).Sim h S P (q.withDefer d) := fun u v huv a ha => by
  obtain ⟨hpa, hda, hw⟩ := ok_of_withDefer h ha
  obtain ⟨hqa, hS, htr⟩ := hp u v huv a hpa
  obtain ⟨hdb, hS', htr'⟩ := hd _ _ hS () hda
  rw [hw, run_withDefer]
  generalize q.run h v = r at hqa hS htr hdb hS' htr' ⊢
  obtain ⟨o, v', tr⟩ := r
  cases hqa
  simp only [Run.deferTo]
  generalize d.run h v' = s at hdb hS' htr' ⊢
  obtain ⟨o', v'', tr'⟩ := s
  cases hdb
  exact ⟨rfl, hS', fun x hx => (List.mem_append.mp hx).elim (htr x) fun hx' =>
    htr' x (by simpa using hx')⟩

theorem Sim.orError {p q : Prog (Except ε α)} (hp : p.Sim h S P q) (wrap : ε → String) :
    (p.orError wrap).Sim h S P (q.orError wrap) :=
  hp.bind fun x => by
    cases x
    · exact fun _ _ _ _ ha => nomatch ha
    · exact Sim.pure _

theorem Sim.forM {l : List α} {f g : α → Prog PUnit} (hf : ∀ x ∈ l, (f x).Sim h S P (g x)) :
    (l.forM f).Sim h S P (l.forM g) := by
  induction l with
  | nil => exact Sim.pure _
  | cons x l ih => exact (hf x (.head _)).bind fun _ => ih fun y hy => hf y (.tail _ hy)

theorem Sim.of_onlyIssues {N : Req → Prop}
    (hN : ∀ r, N r → P r ∧ ∀ u v, S u v → (h r u).1 = (h r v).1 ∧ S (h r u).2 (h r v).2) :
    ∀ {p : Prog α}, p.OnlyIssues N → p.Sim h S P p
  | .pure _, _ => Sim.pure _
  | .call r k, hp => fun u v huv => by
    obtain ⟨hx, hS⟩ := (hN r hp.1).2 u v huv
    refine SimFrom.call (hN r hp.1).1 ?_
    rw [hx]
    exact Sim.of_onlyIssues hN (hp.2 _) _ _ hS
  | .fail _, _ | .panic _, _ | .cut, _ => fun _ _ _ _ ha => nomatch ha

end Prog

end

/-! ## What a first run that succeeds leaves behind -/

def AuthsSettled (es : List GoMap) (s : Server) : Prop :=
  ∀ e ∈ es, ∀ t, (e.get "type").asString? = some t → s.auths (authPath e t ++ "/") = some t

def MountsSettled (es : List GoMap) (s : Server) : Prop :=
  ∀ e ∈ es, ∀ t, (e.get "type").asString? = some t → (s.mounts (authPath e t ++ "/")).isSome

/-- The world `u` names each mount made at `p` by `p ++ "/"`. -/
def SlashKeys (u : World) : Prop := ∀ p, u.server.listKey p = p ++ "/"

theorem slashKeys_answer (r : Req) {u : World} (hu : SlashKeys u) : SlashKeys (World.answer r u).2 :=
  fun p => (congrFun (World.answer_listKey r u) p).trans (hu p)

theorem authsSettled_answer (r : Req) {es : List GoMap} {u : World} (hu : AuthsSettled es u.server) :
    AuthsSettled es (World.answer r u).2.server := fun e he t ht => World.answer_auths_mono r (hu e he t ht)

theorem auths_run (p : Prog α) {u : World} {k t : String} (hu : u.server.auths k = some t) :
    (p.run World.answer u).world.server.auths k = some t :=
  Prog.run_inv World.answer (I := fun w => w.server.auths k = some t)
    (fun r _ hw => World.answer_auths_mono r hw) p hu

theorem mounts_run (p : Prog α) {u : World} {k : String} (hu : (u.server.mounts k).isSome) :
    ((p.run World.answer u).world.server.mounts k).isSome :=
  Prog.run_inv World.answer (I := fun w => (w.server.mounts k).isSome)
    (fun r _ hw => World.answer_mounts_mono r hw) p hu

theorem enable_settles {p t : String} {wrap : String → String} {k : Unit → Prog Unit} {u : World}
    (hkey : SlashKeys u) :
    (((sysEnableAuthWithOptions p ⟨t⟩).orError wrap).bind k).Post World.answer
      (fun _ w' => w'.server.auths (p ++ "/") = some t) u := fun _ hok => by
  simp only [sysEnableAuthWithOptions, Prog.request, Prog.orError, Prog.bind_eq, Prog.call_bind,
    Prog.pure_bind, Prog.run_call, World.answer] at hok ⊢
  by_cases hfree : (u.server.auths (u.server.listKey p)).isSome = true
  · simp only [hfree, if_true] at hok
    cases hok
  · simp only [hfree, Bool.false_eq_true, if_false] at hok ⊢
    refine auths_run _ ?_
    simp only [World.withServer_server, ← hkey p, Function.update_same]

theorem configureAuthMethod_settles {existing : String → Option AuthMount} {e : GoMap} {t : String}
    (ht : (e.get "type").asString? = some t) {u : World} (hkey : SlashKeys u)
    (hex : ∀ k am, existing k = some am → u.server.auths k = some am.type) :
    (configureAuthMethod existing e).Post World.answer
      (fun _ w' => w'.server.auths (authPath e t ++ "/") = some t) u := fun _ hok => by
  unfold configureAuthMethod at hok ⊢
  rw [ht] at hok ⊢
  rcases entryPath_eq e t with hp | hp <;>
    simp only [hp, assert, Prog.bind_eq, Prog.pure_eq, Prog.pure_bind, Prog.panic_bind] at hok ⊢
  · cases hx : existing (authPath e t ++ "/") with
    | none =>
      simp only [hx, Bool.not_false, if_true] at hok ⊢
      exact enable_settles hkey _ hok
    | some am =>
      by_cases hty : am.type = t
      · simp only [hx, hty, beq_self_eq_true, Bool.not_true] at hok ⊢
        exact auths_run _ ((hex _ _ hx).trans (by rw [hty]))
      · simp only [hx, beq_false_of_ne hty, Bool.not_false, if_true] at hok ⊢
        exact enable_settles hkey _ hok
  · cases hok

theorem authLoop_settles {existing : String → Option AuthMount} :
    ∀ {es : List GoMap} {u : World}, SlashKeys u →
      (∀ k am, existing k = some am → u.server.auths k = some am.type) →
      (es.forM (configureAuthMethod existing)).Post World.answer (fun _ w' => AuthsSettled es w'.server) u
  | [], _, _, _ => Prog.Post.pure fun _ he => nomatch he
  | e :: es, u, hkey, hex => by
    refine Prog.Post.bind fun _ hok => ?_
    have he := fun t ht => configureAuthMethod_settles (t := t) ht hkey hex _ hok
    refine ((authLoop_settles (Prog.run_inv World.answer (fun r _ => slashKeys_answer r) _ hkey)
      fun k am h => auths_run _ (hex k am h)).and (Prog.Post.of_inv
        (I := fun w => ∀ t, (e.get "type").asString? = some t → w.server.auths (authPath e t ++ "/") = some t)
        (fun r _ hw t ht => World.answer_auths_mono r (hw t ht)) _ he)).mono fun _ _ h => ?_
    intro e' he' t ht
    rcases List.mem_cons.mp he' with rfl | he'
    exacts [h.2 t ht, h.1 e' he' t ht]

theorem mount_settles {p : String} {input : MountInput} {wrap : String → String} {k : Unit → Prog Unit}
    {u : World} (hkey : SlashKeys u) :
    (((sysMount p input).orError wrap).bind k).Post World.answer
      (fun _ w' => (w'.server.mounts (p ++ "/")).isSome) u := fun _ hok => by
  simp only [sysMount, Prog.request, Prog.orError, Prog.bind_eq, Prog.call_bind,
    Prog.pure_bind, Prog.run_call, World.answer] at hok ⊢
  by_cases hfree : (u.server.mounts (u.server.listKey p)).isSome = true
  · simp only [hfree, if_true] at hok
    cases hok
  · simp only [hfree, Bool.false_eq_true, if_false] at hok ⊢
    refine mounts_run _ ?_
    simp only [World.withServer_server, ← hkey p, Function.update_same, Option.isSome_some]

theorem configureSecretEngine_settles {e : GoMap} {t : String} (ht : (e.get "type").asString? = some t)
    {u : World} (hkey : SlashKeys u) :
    (configureSecretEngine e).Post World.answer
      (fun _ w' => (w'.server.mounts (authPath e t ++ "/")).isSome) u := fun _ hok => by
  unfold configureSecretEngine at hok ⊢
  rw [ht] at hok ⊢
  rcases entryPath_eq e t with hp | hp <;>
    simp only [hp, assert, sysListMounts, Prog.request, Prog.orError, Prog.bind_eq, Prog.pure_eq,
      Prog.pure_bind, Prog.panic_bind, Prog.call_bind, Prog.run_call, World.answer] at hok ⊢
  · by_cases hm : (u.server.mounts (authPath e t ++ "/")).isSome = true
    · simp only [hm, Bool.not_true, Bool.false_eq_true, if_false] at hok ⊢
      exact mounts_run _ hm
    · simp only [hm, Bool.not_false, if_true] at hok ⊢
      rcases getOrDefault_eq e "description" with ⟨d, hd⟩ | hd <;>
        rcases getOrDefault_eq e "plugin_name" with ⟨pn, hpn⟩ | hpn <;>
        simp only [hd, hpn, Prog.pure_bind, Prog.panic_bind] at hok ⊢
      · exact mount_settles hkey _ hok
      all_goals cases hok
  · cases hok

theorem secretLoop_settles :
    ∀ {es : List GoMap} {u : World}, SlashKeys u →
      (es.forM configureSecretEngine).Post World.answer (fun _ w' => MountsSettled es w'.server) u
  | [], _, _ => Prog.Post.pure fun _ he => nomatch he
  | e :: es, u, hkey => by
    refine Prog.Post.bind fun _ hok => ?_
    have he := fun t ht => configureSecretEngine_settles (t := t) ht hkey _ hok
    refine ((secretLoop_settles (Prog.run_inv World.answer (fun r _ => slashKeys_answer r) _ hkey)).and
      (Prog.Post.of_inv
        (I := fun w => ∀ t, (e.get "type").asString? = some t → (w.server.mounts (authPath e t ++ "/")).isSome)
        (fun r _ hw t ht => World.answer_mounts_mono r (hw t ht)) _ he)).mono fun _ _ h => ?_
    intro e' he' t ht
    rcases List.mem_cons.mp he' with rfl | he'
    exacts [h.2 t ht, h.1 e' he' t ht]

def Settled (c : VaultConfig) (s : Server) : Prop :=
  (∀ es, c.auth = .ok es → AuthsSettled es s) ∧ ∀ es, c.secrets = .ok es → MountsSettled es s

theorem configureWithToken_settles (c : VaultConfig) {u : World} (hkey : SlashKeys u) :
    (configureWithToken c).Post World.answer (fun _ w' => Settled c w'.server) u := by
  unfold configureWithToken
  refine Prog.Post.bind (Prog.Post.orError (Prog.Post.request fun _ hex => ?_) _)
  cases hex
  refine Prog.Post.bind (Prog.Post.orError (Prog.Post.pure fun es hes => ?_) _)
  refine Prog.Post.bind (((authLoop_settles hkey fun k am h => ?_).and
    (Prog.Post.of_inv (fun r _ => slashKeys_answer r) _ hkey)).mono fun _ u₁ h₁ => ?_)
  · simp only [World.answer, Option.map_eq_some'] at h
    obtain ⟨t, ht, rfl⟩ := h
    exact ht
  refine Prog.Post.bind ((Prog.Post.tryCatch_fail ((Prog.Post.of_inv (I := fun w => AuthsSettled es w.server)
    (fun r _ => authsSettled_answer r) _ h₁.1).and
      (Prog.Post.of_inv (fun r _ => slashKeys_answer r) _ h₁.2))).mono fun _ u₂ h₂ => ?_)
  refine Prog.Post.tryCatch_fail ?_
  unfold configureSecretEngines
  refine Prog.Post.bind (Prog.Post.orError (Prog.Post.pure fun ses hses => ?_) _)
  refine ((secretLoop_settles h₂.2).and (Prog.Post.of_inv (I := fun w => AuthsSettled es w.server)
    (fun r _ => authsSettled_answer r) _ h₂.1)).mono
    fun _ _ h => ⟨fun es' hes' => ?_, fun ses' hses' => ?_⟩
  · rw [hes] at hes'; cases hes'; exact h.2
  · rw [hses] at hses'; cases hses'; exact h.1

/-- After a run of `Configure` that succeeds, every auth method of the configuration is
enabled at its path and every secret engine mounted at its path. -/
theorem configure_settles (c : VaultConfig) {w : World} (hkey : SlashKeys w) :
    (configure c).Post World.answer (fun _ w' => Settled c w'.server) w := by
  unfold configure
  refine Prog.Post.bind_inv (fun r _ => slashKeys_answer r) hkey fun _ u₁ hu₁ =>
    Prog.Post.bind_inv (fun r _ => slashKeys_answer r) hu₁ fun _ u₂ hu₂ => Prog.Post.withDefer ?_
  exact (configureWithToken_settles c hu₂).mono fun _ _ h _ _ => h

/-! ## The second run beside the first -/

/-- The requests whose answers and effects do not depend on what is mounted. -/
def Req.Neutral : Req → Prop
  | .kvGet _ | .setToken _ | .write _ _ | .putPolicy _ _ | .readFile _ | .getenv _ | .range _ => True
  | _ => False

def Req.createsMount : Req → Bool
  | .enableAuth _ _ | .mount _ _ => true
  | _ => false

/-- The second run's world `v` beside the first's `u`, when the first run ends with the
server `S1`: the same key store, environment and map orders; the second server is `S1`
but for the data, policies and mount options both runs have since written alike. -/
structure Rerun (S1 : Server) (u v : World) : Prop where
  keys : v.keys = u.keys
  env : v.env = u.env
  ranges : v.ranges = u.ranges
  slash_u : SlashKeys u
  slash_v : SlashKeys v
  frame : v.server = { S1 with data := v.server.data, policies := v.server.policies, mounts := v.server.mounts }
  data : ∀ q, v.server.data q = S1.data q ∨ v.server.data q = u.server.data q
  policies : ∀ q, v.server.policies q = S1.policies q ∨ v.server.policies q = u.server.policies q
  mounts : ∀ k, v.server.mounts k = S1.mounts k ∨
    ∃ m s, u.server.mounts k = some m ∧ S1.mounts k = some s ∧ v.server.mounts k = some { s with options := m.options }

namespace Rerun

variable {S1 : Server} {u v : World}

theorem auths (huv : Rerun S1 u v) : v.server.auths = S1.auths := by rw [huv.frame]

theorem neutral (huv : Rerun S1 u v) {r : Req} (hr : r.Neutral) :
    (World.answer r u).1 = (World.answer r v).1 ∧ Rerun S1 (World.answer r u).2 (World.answer r v).2 := by
  cases r <;> simp only [Req.Neutral] at hr
  case kvGet key => exact ⟨by simp only [World.answer, huv.keys], huv⟩
  case setToken t => exact ⟨rfl, { huv with }⟩
  case write path d =>
    refine ⟨rfl, { huv with frame := ?_, data := fun q => ?_ }⟩
    · simp only [World.answer, World.withServer_server]
      rw [huv.frame]
    · simp only [World.answer, World.withServer_server, Function.update_apply]
      split_ifs
      exacts [.inr rfl, huv.data q]
  case putPolicy name rules =>
    refine ⟨rfl, { huv with frame := ?_, policies := fun q => ?_ }⟩
    · simp only [World.answer, World.withServer_server]
      rw [huv.frame]
    · simp only [World.answer, World.withServer_server, Function.update_apply]
      split_ifs
      exacts [.inr rfl, huv.policies q]
  case readFile name => exact ⟨by simp only [World.answer, huv.env], huv⟩
  case getenv key => exact ⟨by simp only [World.answer, huv.env], huv⟩
  case range n =>
    exact ⟨by simp only [World.answer, huv.env, huv.ranges], { huv with ranges := by simp [World.answer, huv.ranges] }⟩

theorem enable_left (huv : Rerun S1 u v) (auths : String → Option String) :
    Rerun S1 (u.withServer { u.server with auths := auths }) v :=
  { huv with }

/-- The first run mounts or tunes `m` at `key`, the second tunes the mount it has there to
the same options. -/
theorem setMount (huv : Rerun S1 u v) {key : String} {m sv : MountInput}
    (hv : v.server.mounts key = some sv) :
    Rerun S1 (u.withServer { u.server with mounts := Function.update u.server.mounts key (some m) })
      (v.withServer { v.server with
        mounts := Function.update v.server.mounts key (some { sv with options := m.options }) }) := by
  refine { huv with frame := ?_, mounts := fun k => ?_ }
  · simp only [World.withServer_server]
    rw [huv.frame]
  · simp only [World.withServer_server, Function.update_apply]
    split_ifs with hk
    · subst hk
      rcases huv.mounts k with h | ⟨m', s, -, hs, h⟩
      · exact .inr ⟨m, sv, rfl, h ▸ hv, rfl⟩
      · rw [hv] at h
        cases h
        exact .inr ⟨m, s, rfl, hs, rfl⟩
    · exact huv.mounts k

end Rerun

abbrev Quiet (r : Req) : Prop := r.createsMount = false

section
variable {S1 : Server}

theorem sim_neutral {p : Prog α} (hp : p.OnlyIssues Req.Neutral) : p.Sim World.answer (Rerun S1) Quiet p :=
  Prog.Sim.of_onlyIssues (fun r hr => ⟨by cases r <;> first | rfl | exact hr.elim,
    fun _ _ huv => huv.neutral hr⟩) hp

theorem sim_configStep {p : Prog α} (hp : p.OnlyIssues Req.ConfigStep) :
    p.Sim World.answer (Rerun S1) Quiet p :=
  sim_neutral (hp.mono fun r _ => by cases r <;> trivial)

theorem simFrom_enable_left {p t : String} {wrap : String → String} {k : Unit → Prog Unit} {q : Prog Unit}
    {u v : World} (huv : Rerun S1 u v)
    (hk : ∀ u', Rerun S1 u' v → (k ()).SimFrom World.answer (Rerun S1) Quiet u' v q) :
    (((sysEnableAuthWithOptions p ⟨t⟩).orError wrap).bind k).SimFrom World.answer (Rerun S1) Quiet u v q := by
  simp only [sysEnableAuthWithOptions, Prog.request, Prog.orError, Prog.bind_eq, Prog.call_bind, Prog.pure_bind]
  refine Prog.SimFrom.left ?_
  simp only [World.answer]
  by_cases hfree : (u.server.auths (u.server.listKey p)).isSome = true
  · simp only [hfree, if_true]
    exact Prog.SimFrom.fail_left _
  · simp only [hfree, Bool.false_eq_true, if_false]
    exact hk _ (huv.enable_left _)

theorem sim_configureAuthMethod (existing : String → Option AuthMount) {e : GoMap}
    (hG : ∀ t, (e.get "type").asString? = some t → S1.auths (authPath e t ++ "/") = some t) :
    (configureAuthMethod existing e).Sim World.answer (Rerun S1) Quiet
      (configureAuthMethod (fun k => (S1.auths k).map AuthMount.mk) e) := fun u v huv => by
  unfold configureAuthMethod
  cases ht : (e.get "type").asString? with
  | none => exact Prog.SimFrom.panic_left _
  | some t =>
    simp only [assert, Prog.bind_eq, Prog.pure_eq, Prog.pure_bind]
    rcases entryPath_eq e t with hp | hp <;> simp only [hp, Prog.pure_bind, Prog.panic_bind]
    · simp only [hG t ht, Option.map_some', beq_self_eq_true, Bool.not_true, Bool.false_eq_true, if_false,
        Prog.pure_bind]
      split
      · exact simFrom_enable_left huv fun u' hu' => sim_configStep (configureAuthType_configStep _ _ _) u' v hu'
      · simpa only [Prog.pure_bind] using sim_configStep (configureAuthType_configStep e (authPath e t) t) u v huv
    · exact Prog.SimFrom.panic_left _

theorem sim_configureSecretEngine {e : GoMap}
    (hG : ∀ t, (e.get "type").asString? = some t → (S1.mounts (authPath e t ++ "/")).isSome) :
    (configureSecretEngine e).Sim World.answer (Rerun S1) Quiet (configureSecretEngine e) := fun u v huv => by
  unfold configureSecretEngine
  cases ht : (e.get "type").asString? with
  | none => exact Prog.SimFrom.panic_left _
  | some t =>
    simp only [assert, Prog.bind_eq, Prog.pure_eq, Prog.pure_bind]
    rcases entryPath_eq e t with hp | hp <;> simp only [hp, Prog.pure_bind, Prog.panic_bind]
    · simp only [sysListMounts, Prog.request, Prog.orError, Prog.call_bind, Prog.pure_bind]
      refine Prog.SimFrom.call rfl ?_
      obtain ⟨sv, hsv⟩ : ∃ sv, v.server.mounts (authPath e t ++ "/") = some sv := by
        rcases huv.mounts (authPath e t ++ "/") with h | ⟨m, s, -, -, h⟩
        · obtain ⟨sv, hs⟩ := Option.isSome_iff_exists.mp (hG t ht)
          exact ⟨sv, h.trans hs⟩
        · exact ⟨_, h⟩
      simp only [World.answer, Prog.pure_bind, hsv, Option.isSome_some, Bool.not_true, Bool.false_eq_true,
        if_false]
      have hloop := fun u' v' (h : Rerun S1 u' v') => sim_configStep
        (configurationLoop_configStep (authPath e t) (getOrDefaultStringMap e "configuration")) u' v' h
      by_cases hm : (u.server.mounts (authPath e t ++ "/")).isSome = true
      · obtain ⟨m, hum⟩ := Option.isSome_iff_exists.mp hm
        simp only [hm, Bool.not_true, Bool.false_eq_true, if_false, sysTuneMount, Prog.request, Prog.bind_eq,
          Prog.call_bind, Prog.pure_bind]
        refine Prog.SimFrom.call rfl ?_
        simp only [World.answer, huv.slash_u (authPath e t), huv.slash_v (authPath e t), hum, hsv, Prog.pure_bind]
        exact hloop _ _ (huv.setMount hsv)
      · simp only [hm, Bool.not_false, if_true]
        rcases getOrDefault_eq e "description" with ⟨d, hd⟩ | hd <;>
          rcases getOrDefault_eq e "plugin_name" with ⟨pn, hpn⟩ | hpn <;>
          simp only [hd, hpn, Prog.pure_bind, Prog.panic_bind]
        · simp only [sysMount, sysTuneMount, Prog.request, Prog.bind_eq, Prog.call_bind, Prog.pure_bind]
          refine Prog.SimFrom.call rfl ?_
          simp only [World.answer, huv.slash_u (authPath e t), huv.slash_v (authPath e t), hm, hsv, Bool.false_eq_true, if_false,
            Prog.pure_bind]
          exact hloop _ _ (huv.setMount hsv)
        all_goals exact Prog.SimFrom.panic_left _
    · exact Prog.SimFrom.panic_left _

theorem configurePolicies_neutral (c : VaultConfig) : (configurePolicies c).OnlyIssues Req.Neutral :=
  (Prog.OnlyIssues.orError (by trivial) _).bind fun _ =>
    Prog.OnlyIssues.forM fun _ _ => (Prog.onlyIssues_request trivial).orError _

theorem sim_configureWithToken (c : VaultConfig) (hS : Settled c S1) :
    (configureWithToken c).Sim World.answer (Rerun S1) Quiet (configureWithToken c) := fun u v huv => by
  unfold configureWithToken
  simp only [sysListAuth, Prog.request, Prog.orError, Prog.bind_eq, Prog.call_bind, Prog.pure_bind]
  refine Prog.SimFrom.call rfl ?_
  simp only [World.answer, huv.auths, Prog.pure_bind]
  cases ha : c.auth with
  | error => exact Prog.SimFrom.fail_left _
  | ok es =>
    simp only [Prog.pure_eq, Prog.pure_bind]
    refine (Prog.Sim.bind (Prog.Sim.forM fun e he => sim_configureAuthMethod _ (hS.1 es ha e he)) fun _ =>
      Prog.Sim.bind (Prog.Sim.tryCatch_fail (sim_neutral (configurePolicies_neutral c))) fun _ =>
        Prog.Sim.tryCatch_fail ?_) u v huv
    unfold configureSecretEngines
    cases hs : c.secrets with
    | error => exact fun _ _ _ => Prog.SimFrom.fail_left _
    | ok ses =>
      simp only [Prog.orError, Prog.bind_eq, Prog.pure_eq, Prog.pure_bind]
      exact Prog.Sim.forM fun e he => sim_configureSecretEngine (hS.2 ses hs e he)

theorem sim_configure (c : VaultConfig) (hS : Settled c S1) :
    (configure c).Sim World.answer (Rerun S1) Quiet (configure c) := by
  unfold configure
  exact Prog.Sim.bind (sim_neutral ((Prog.onlyIssues_request trivial).orError _)) fun _ =>
    Prog.Sim.bind (sim_neutral (Prog.onlyIssues_request trivial)) fun _ =>
      Prog.Sim.withDefer (sim_configureWithToken c hS) (sim_neutral (Prog.onlyIssues_request trivial))

end

theorem Rerun.final {u v : World} (hR : Rerun u.server u v) : v.server = u.server := by
  have hm : ∀ k, v.server.mounts k = u.server.mounts k := fun k =>
    (hR.mounts k).elim id fun ⟨m, s, hm, hs, h⟩ => by
      rw [hm] at hs
      cases hs
      exact h.trans hm.symm
  rw [hR.frame, funext fun q => (hR.data q).elim id id, funext fun q => (hR.policies q).elim id id, funext hm]

/-- `Configure` run again, from the world `w` with the server its first run left. -/
def rerun (c : VaultConfig) (w : World) : Run Unit World :=
  (configure c).run World.answer (w.withServer ((configure c).run World.answer w).world.server)

/-- On a server that lists a mount made at `p` under `p/`, a second `Configure` after one
that succeeded succeeds, enables and mounts nothing, and leaves the server as it was. -/
theorem configure_rerun_settled (c : VaultConfig) (w : World) (hkey : ∀ p, w.server.listKey p = p ++ "/")
    (hok : ((configure c).run World.answer w).outcome = .ok ()) :
    (rerun c w).outcome = .ok () ∧ (∀ r ∈ (rerun c w).trace, r.createsMount = false) ∧
      (rerun c w).world.server = ((configure c).run World.answer w).world.server := by
  have h0 : Rerun ((configure c).run World.answer w).world.server w
      (w.withServer ((configure c).run World.answer w).world.server) :=
    ⟨rfl, rfl, rfl, hkey, fun p => (congrFun (Prog.run_inv World.answer (I := fun u => u.server.listKey = w.server.listKey)
      (fun r u hu => (World.answer_listKey r u).trans hu) _ rfl) p).trans (hkey p), rfl,
      fun _ => .inl rfl, fun _ => .inl rfl, fun _ => .inl rfl⟩
  obtain ⟨hout, hR, htr⟩ := sim_configure c (configure_settles c hkey () hok) _ _ h0 () hok
  exact ⟨hout, htr, hR.final⟩

theorem configure_rerun_settled_sample :
    ((configure sampleConfig).run World.answer podWorld).outcome = .ok () ∧
      (rerun sampleConfig podWorld).outcome = .ok () ∧
      (∀ r ∈ (rerun sampleConfig podWorld).trace, r.createsMount = false) ∧
      (rerun sampleConfig podWorld).world.server = ((configure sampleConfig).run World.answer podWorld).world.server :=
  have hok : ((configure sampleConfig).run World.answer podWorld).outcome = .ok () := by decide
  ⟨hok, configure_rerun_settled sampleConfig podWorld (fun _ => rfl) hok⟩

/-! ## A path with a trailing slash -/

end BankVaults
