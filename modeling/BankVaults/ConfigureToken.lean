import BankVaults.ConfigureSound

/-!
# The root token during `Configure`

`Configure` reads `vault-root`, installs it as the client's token, and clears the token
again in a deferred call. Whatever the key store and the server answer, a run that has
read the token installs it at once. While it is installed, the run makes only requests
of the server's configuration endpoints and reads of the pod's environment. It then ends
by clearing the token, after a success, an error and a failed type assertion alike: the
configuration steps never run out of fuel, so the deferred call always runs.
-/

namespace BankVaults

open Vault

/-- The requests `Configure` makes while the root token is installed: the server's auth,
policy, mount and write endpoints, and reads of the pod's files, environment and map
order. -/
def Req.Reconciles : Req → Prop
  | .listAuth | .enableAuth _ _ | .write _ _ | .putPolicy _ _ | .listMounts | .mount _ _ | .tuneMount _ _
  | .readFile _ | .getenv _ | .range _ => True
  | _ => False

theorem Req.ConfigStep.reconciles {r : Req} (hr : r.ConfigStep) : r.Reconciles := by
  cases r <;> first | exact hr.elim | trivial

theorem configurePolicies_confined (c : VaultConfig) : (configurePolicies c).Confined Req.Reconciles :=
  (Prog.Confined.orError (by trivial) _).bind fun _ =>
    Prog.Confined.forM fun _ _ => (Prog.Confined.request trivial).orError _

theorem configureWithToken_confined (c : VaultConfig) : (configureWithToken c).Confined Req.Reconciles :=
  ((Prog.Confined.request trivial).orError _).bind fun existing => (Prog.Confined.orError (by trivial) _).bind
    fun _ => (Prog.Confined.forM fun e _ => configureAuthMethod_confined (fun _ => Req.ConfigStep.reconciles)
      (fun _ _ => trivial) existing e).bind
    fun _ => ((configurePolicies_confined c).tryCatch fun _ => by trivial).bind
    fun _ => (configureSecretEngines_confined (fun _ => Req.ConfigStep.reconciles) trivial (fun _ _ => trivial)
      (fun _ _ => trivial) c).tryCatch fun _ => by trivial

theorem configure_onlyIssues (c : VaultConfig) :
    (configure c).OnlyIssues fun r => r = .kvGet rootTokenKey ∨ (∃ token, r = .setToken token) ∨ r.Reconciles :=
  ((Prog.onlyIssues_request (.inl rfl)).orError _).bind fun token =>
    (Prog.onlyIssues_request (.inr (.inl ⟨token, rfl⟩))).bind fun _ =>
      Prog.OnlyIssues.withDefer (Prog.onlyIssues_request (.inr (.inl ⟨"", rfl⟩)))
        ((configureWithToken_confined c).onlyIssues.mono fun _ h => .inr (.inr h))

theorem run_withDefer_setToken {W : Type} (h : (r : Req) → W → Resp r × W) {p : Prog α} {w : W}
    (hp : (p.run h w).outcome ≠ .cut) (token : String) :
    ((p.withDefer (setToken token)).run h w).outcome = (p.run h w).outcome ∧
      ((p.withDefer (setToken token)).run h w).trace = (p.run h w).trace ++ [.setToken token] := by
  rw [Prog.run_withDefer]
  generalize p.run h w = r at hp ⊢
  obtain ⟨o, w', tr⟩ := r
  cases o
  case cut => exact absurd rfl hp
  all_goals exact ⟨rfl, rfl⟩

/-- Whatever the key store and the server answer, `Configure` either fails to read
`vault-root` and returns that error, or installs the token it read, makes only requests of
the server's auth, policy, mount and write endpoints and reads of the pod's files,
environment and map order, and ends by clearing the token, on a success, an error and a
panic alike. -/
theorem configure_clears_token {W : Type} (h : (r : Req) → W → Resp r × W) (c : VaultConfig) (w : W) :
    (∃ err, (h (.kvGet rootTokenKey) w).1 = .error err ∧ ((configure c).run h w).trace = [.kvGet rootTokenKey] ∧
        ∃ e, ((configure c).run h w).outcome = .error e) ∨
      ∃ token mid, (h (.kvGet rootTokenKey) w).1 = .ok token ∧
        ((configure c).run h w).trace = .kvGet rootTokenKey :: .setToken token :: (mid ++ [.setToken ""]) ∧
        (∀ r ∈ mid, r.Reconciles) ∧ ((configure c).run h w).outcome ≠ .cut := by
  simp only [configure, kvGet, Prog.request, Prog.orError, Prog.bind_eq, Prog.call_bind, Prog.pure_bind,
    Prog.run_call]
  rcases hget : (h (.kvGet rootTokenKey) w).1 with err | token
  · exact .inl ⟨err, rfl, rfl, _, rfl⟩
  · simp only [Prog.pure_bind, setToken, Prog.request, Prog.call_bind, Prog.run_call]
    have hc := configureWithToken_confined c
    obtain ⟨hout, htrace⟩ := run_withDefer_setToken h (w := (h (.setToken token) (h (.kvGet rootTokenKey) w).2).2)
      (hc.run_ne_cut h) ""
    simp only [setToken, Prog.request] at hout htrace
    exact .inr ⟨token, _, rfl, by rw [htrace], hc.onlyIssues.mem_trace h, by rw [hout]; exact hc.run_ne_cut h⟩

end BankVaults
