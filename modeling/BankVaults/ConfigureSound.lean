import BankVaults.InitSound
import BankVaults.Configure

/-!
# What `Configure` does with a configuration

Four facts about one run of `Configure`. A configuration that follows the schema
(string types and paths, roles for the `kubernetes` and `aws` types, categories of
interface-keyed maps) never makes it fail a type assertion, whatever the server
answers; leaving out such a part does. The writes of an auth method go under its
resolved path only for the `kubernetes` backend config: the rest go under the type's
default path. The auth mounts are listed once, before the loop, so a second entry at
one path finds the first's mount only through the server's refusal. Only the policy
loop puts policies, so a run that succeeds leaves each configured policy in place, the
last entry of a name winning.
-/

namespace BankVaults

open Vault

/-! ## The switch over auth method types -/

/-- A property of programs that sequencing and rethrowing keep holds of the switch of
`Configure` on the type `t` of an auth method when it holds of each step of the arm for `t`. -/
theorem configureAuthType_of_arms (G : ∀ {α : Type}, Prog α → Prop) (e : GoMap) (path : String) {t : String}
    (hbind : ∀ {α β : Type} {p : Prog α} {f : α → Prog β}, G p → (∀ a, G (f a)) → G (p.bind f))
    (hcatch : ∀ {p : Prog Unit} {g : String → String}, G p → G (p.tryCatch fun err => .fail (g err)))
    (hpure : G (Prog.pure ()))
    (hk : t = "kubernetes" → G (kubernetesAuthConfig path) ∧ G (assert (e.get "roles").asList?) ∧
      ∀ roles, G (configureKubernetesRoles roles))
    (hg : t = "github" → G (configureGithubConfig (e.get "config").castToStringMap) ∧
      G (configureGithubMappings (e.get "map").castToStringMap))
    (ha : t = "aws" → G (configureAwsConfig (e.get "config").castToStringMap) ∧
      G (assert (e.get "roles").asList?) ∧ ∀ roles, G (configureAwsRoles roles))
    (hl : t = "ldap" → G (configureLdapConfig (e.get "config").castToStringMap) ∧
      G (configureLdapMappings "groups" (e.get "groups").castToStringMap) ∧
      G (configureLdapMappings "users" (e.get "users").castToStringMap)) :
    G (configureAuthType e path t) := by
  unfold configureAuthType
  split
  · obtain ⟨h₁, h₂, h₃⟩ := hk rfl
    exact hbind (hcatch h₁) fun _ => hbind h₂ fun _ => hcatch (h₃ _)
  · obtain ⟨h₁, h₂⟩ := hg rfl
    exact hbind (hcatch h₁) fun _ => hcatch h₂
  · obtain ⟨h₁, h₂, h₃⟩ := ha rfl
    exact hbind (hcatch h₁) fun _ => hbind h₂ fun _ => hcatch (h₃ _)
  · obtain ⟨h₁, h₂, h₃⟩ := hl rfl
    exact hbind (hcatch h₁) fun _ => hbind (hcatch h₂) fun _ => hcatch h₃
  · exact hpure

/-! ## A pod and its configurations -/

def writePaths (trace : List Req) : List String :=
  trace.filterMap fun r => match r with
    | .write path _ => some path
    | _ => none

/-- A key store holding the root token `root`, beside a fresh server, in a pod whose
service-account files are readable. -/
def podWorld : World :=
  { freshWorld with
    keys := fun k => if k = rootTokenKey then some "root" else none
    env := ⟨fun name =>
        if name = "/var/run/secrets/kubernetes.io/serviceaccount/ca.crt" then some "CA"
        else if name = "/var/run/secrets/kubernetes.io/serviceaccount/token" then some "JWT"
        else none,
      fun _ => "10.0.0.1", fun _ n => ⟨List.range n, List.Perm.refl _⟩⟩ }

def authOnly (auth : List GoMap) : VaultConfig := ⟨.ok auth, .ok [], .ok []⟩

def k8sAtCustomPath : GoMap :=
  [("type", .str "kubernetes"), ("path", .str "k8s"), ("roles", .list [.smap [("name", .str "r")]])]

/-- The auth methods and secret engines of `vault-config.yml`, in part, as YAML decoding
gives them. -/
def sampleConfig : VaultConfig :=
  ⟨.ok [[("type", .str "kubernetes"),
          ("roles", .list [.imap [(.str "name", .str "default"), (.str "policies", .str "allow_secrets")]])],
        [("type", .str "github"), ("config", .imap [(.str "organization", .str "example-org")]),
          ("map", .imap [(.str "teams", .imap [(.str "dev", .str "dev")])])]],
    .ok [[("name", "allow_secrets"), ("rules", "path \"secret/*\" \x7b capabilities = [\"read\"] \x7d")]],
    .ok [[("path", .str "secret"), ("type", .str "kv"), ("description", .str "General secrets.")],
        [("type", .str "database"), ("description", .str "MySQL Database secret engine."),
          ("configuration", .imap [(.str "config",
            .list [.imap [(.str "name", .str "my-mysql"), (.str "plugin_name", .str "mysql-database-plugin")]])])]]⟩

/-! ## Configurations the code reads without a failed assertion -/

def Value.isStr : Value → Bool
  | .str _ => true
  | _ => false

def Value.isList : Value → Bool
  | .list _ => true
  | _ => false

def Value.isIMap : Value → Bool
  | .imap _ => true
  | _ => false

def Value.isNullOrStr : Value → Bool
  | .null | .str _ => true
  | _ => false

/-- An optional string field: absent, or a string. -/
def optStr (e : GoMap) (key : String) : Bool :=
  match e.lookup? key with
  | some v => v.isStr
  | none => true

/-- An auth entry with a string `type`, a string `path` if any, and a `roles` list for the
`kubernetes` and `aws` types. -/
def authEntryOk (e : GoMap) : Bool :=
  match e.get "type" with
  | .str t => optStr e "path" && (if t = "kubernetes" ∨ t = "aws" then (e.get "roles").isList else true)
  | _ => false

/-- Absent, or a map: what `cast.ToStringMap` takes as it is. A newer `cast` decodes a
JSON text into a map, which this model does not. -/
def Value.isNullOrMap : Value → Bool
  | .null | .imap _ | .smap _ => true
  | _ => false

/-- A secrets entry with a string `type`, a string `path` if any, a string or no
`description` and `plugin_name`, and a `configuration` that is absent or a map whose every
category is a list of interface-keyed maps. -/
def secretEntryOk (e : GoMap) : Bool :=
  (e.get "type").isStr && optStr e "path" && (e.get "description").isNullOrStr &&
    (e.get "plugin_name").isNullOrStr && (e.get "configuration").isNullOrMap &&
    (getOrDefaultStringMap e "configuration").all fun kv => match kv.2 with
      | .list xs => xs.all Value.isIMap
      | _ => false

def configOk (c : VaultConfig) : Bool :=
  (match c.auth with
    | .ok es => es.all authEntryOk
    | .error _ => true) &&
  (match c.secrets with
    | .ok es => es.all secretEntryOk
    | .error _ => true)

theorem returns_entryPath {e : GoMap} (he : optStr e "path" = true) (t : String) :
    (entryPath e t).Returns := by
  unfold optStr at he
  unfold entryPath
  cases hv : e.lookup? "path" with
  | none => trivial
  | some v =>
    rw [hv] at he
    cases v <;> trivial

theorem returns_assert_list {v : Value} (hv : v.isList = true) : (assert v.asList?).Returns := by
  cases v <;> trivial

theorem returns_assert_imap {v : Value} (hv : v.isIMap = true) : (assert v.asIMap?).Returns := by
  cases v <;> trivial

theorem returns_getOrDefault {e : GoMap} {key : String} (he : (e.get key).isNullOrStr = true) :
    (getOrDefault e key).Returns := by
  unfold getOrDefault
  cases hv : e.get key <;> simp_all [Value.isNullOrStr, Value.asString?, assert] <;> trivial

theorem returns_kubernetesAuthConfig (path : String) : (kubernetesAuthConfig path).Returns :=
  Prog.Returns.bind (fun _ => Prog.Returns.bind (fun _ => Prog.Returns.bind
    (fun _ => (Prog.returns_request _).orError _) (Prog.returns_request _))
    ((Prog.returns_request _).orError _)) ((Prog.returns_request _).orError _)

theorem returns_configureRoles (rolePath kind : String) (roles : List Value) :
    (configureRoles rolePath kind roles).Returns :=
  Prog.Returns.forM fun _ _ => (Prog.returns_request _).orError _

theorem returns_writeAuthConfig (configPath kind : String) (config : GoMap) :
    (writeAuthConfig configPath kind config).Returns :=
  (Prog.returns_request _).orError _

theorem returns_configureGithubMappings (mappings : GoMap) :
    (configureGithubMappings mappings).Returns :=
  returns_iterate_forM fun _ _ => returns_iterate_forM fun _ _ => (Prog.returns_request _).orError _

theorem returns_configureLdapMappings (mappingType : String) (mappings : GoMap) :
    (configureLdapMappings mappingType mappings).Returns :=
  returns_iterate_forM fun _ _ => (Prog.returns_request _).orError _

theorem returns_configureAuthType (e : GoMap) (path t : String)
    (hroles : (if t = "kubernetes" ∨ t = "aws" then (e.get "roles").isList else true) = true) :
    (configureAuthType e path t).Returns :=
  have hassert : t = "kubernetes" ∨ t = "aws" → (assert (e.get "roles").asList?).Returns :=
    fun h => returns_assert_list (by rwa [if_pos h] at hroles)
  configureAuthType_of_arms Prog.Returns e path (fun hp hf => Prog.Returns.bind hf hp)
    (fun hp => hp.tryCatch fun _ => by trivial) trivial
    (fun h => ⟨returns_kubernetesAuthConfig path, hassert (.inl h), fun _ => returns_configureRoles _ _ _⟩)
    (fun _ => ⟨returns_writeAuthConfig _ _ _, returns_configureGithubMappings _⟩)
    (fun h => ⟨returns_writeAuthConfig _ _ _, hassert (.inr h), fun _ => returns_configureRoles _ _ _⟩)
    (fun _ => ⟨returns_writeAuthConfig _ _ _, returns_configureLdapMappings _ _, returns_configureLdapMappings _ _⟩)

theorem returns_configureAuthMethod (existing : String → Option AuthMount) {e : GoMap}
    (he : authEntryOk e = true) : (configureAuthMethod existing e).Returns := by
  unfold authEntryOk at he
  split at he
  next t ht =>
    simp only [Bool.and_eq_true] at he
    unfold configureAuthMethod
    rw [ht]
    simp only [Value.asString?, assert, Prog.bind_eq, Prog.pure_eq, Prog.pure_bind]
    refine Prog.Returns.bind (fun path => ?_) (returns_entryPath he.1 t)
    have hdispatch := returns_configureAuthType e path t he.2
    split
    · exact Prog.Returns.bind (fun _ => hdispatch) ((Prog.returns_request _).orError _)
    · exact hdispatch
  next => simp at he


theorem returns_writeSubConfig (path configOption : String) (configData : Value) {sub : Value}
    (hsub : sub.isIMap = true) : (writeSubConfig path configOption configData sub).Returns := by
  refine Prog.Returns.bind (fun _ => ?_) (returns_assert_imap hsub)
  intro x
  rcases x with _ | _
  · simp only [Prog.pure_bind]
    split <;> trivial
  · trivial

theorem type_of_secretEntryOk {e : GoMap} (he : secretEntryOk e = true) : ∃ t, e.get "type" = .str t := by
  simp only [secretEntryOk, Bool.and_eq_true] at he
  cases hv : e.get "type" <;> simp_all [Value.isStr]

theorem returns_configureSecretEngine {e : GoMap} (he : secretEntryOk e = true) :
    (configureSecretEngine e).Returns := by
  obtain ⟨t, ht⟩ := type_of_secretEntryOk he
  simp only [secretEntryOk, Bool.and_eq_true, List.all_eq_true] at he
  obtain ⟨⟨⟨⟨⟨-, hpath⟩, hdesc⟩, hplugin⟩, -⟩, hconf⟩ := he
  unfold configureSecretEngine
  rw [ht]
  simp only [Value.asString?, assert, Prog.bind_eq, Prog.pure_eq, Prog.pure_bind]
  refine Prog.Returns.bind (fun path => ?_) (returns_entryPath hpath t)
  refine Prog.Returns.bind (fun mounts => ?_) ((Prog.returns_request _).orError _)
  have hconfig : ((iterate (getOrDefaultStringMap e "configuration")).bind fun l => l.forM
      fun x => (assert x.2.asList?).bind fun subConfigs =>
        subConfigs.forM (writeSubConfig path x.1 x.2)).Returns := by
    refine returns_iterate_forM fun ⟨configOption, configData⟩ hx => ?_
    have hdata := hconf _ hx
    simp only at hdata
    split at hdata
    next _ xs =>
      exact Prog.Returns.forM fun sub hsub => returns_writeSubConfig _ _ _ (List.all_eq_true.mp hdata sub hsub)
    next => simp at hdata
  split
  · refine Prog.Returns.bind (fun _ => ?_) (returns_getOrDefault hdesc)
    refine Prog.Returns.bind (fun _ => ?_) (returns_getOrDefault hplugin)
    exact Prog.Returns.bind (fun _ => hconfig) ((Prog.returns_request _).orError _)
  · exact Prog.Returns.bind (fun _ => hconfig) ((Prog.returns_request _).orError _)

theorem returns_configureWithToken {c : VaultConfig} (hc : configOk c = true) :
    (configureWithToken c).Returns := by
  simp only [configOk, Bool.and_eq_true] at hc
  have hpolicies : (configurePolicies c).Returns :=
    Prog.Returns.bind (fun _ => Prog.Returns.forM fun _ _ => (Prog.returns_request _).orError _)
      (Prog.Returns.orError (by trivial) _)
  have hsecrets : (configureSecretEngines c).Returns := by
    unfold configureSecretEngines
    cases hs : c.secrets with
    | error => trivial
    | ok es =>
      rw [hs] at hc
      exact Prog.Returns.forM fun e he => returns_configureSecretEngine (List.all_eq_true.mp hc.2 e he)
  refine Prog.Returns.bind (fun existing => ?_) ((Prog.returns_request _).orError _)
  cases ha : c.auth with
  | error => trivial
  | ok es =>
    rw [ha] at hc
    exact Prog.Returns.bind (fun _ => Prog.Returns.bind (fun _ => hsecrets.tryCatch fun _ => by trivial)
      (hpolicies.tryCatch fun _ => by trivial))
      (Prog.Returns.forM fun e he => returns_configureAuthMethod existing (List.all_eq_true.mp hc.1 e he))

/-- On a configuration that follows the schema, `Configure` returns success or an error,
whatever the server answers. -/
theorem configure_returns (c : VaultConfig) (hc : configOk c = true) {W : Type}
    (h : (r : Req) → W → Resp r × W) (w : W) :
    ((configure c).run h w).outcome = .ok () ∨ ∃ err, ((configure c).run h w).outcome = .error err := by
  have hr : (configure c).Returns := by
    unfold configure
    refine Prog.Returns.bind (fun _ => ?_) ((Prog.returns_request _).orError _)
    exact Prog.Returns.bind (fun _ => Prog.Returns.withDefer (Prog.returns_request _)
      (returns_configureWithToken hc)) (Prog.returns_request _)
  obtain ⟨⟨⟩, hok⟩ | herr := hr.run h w
  · exact .inl hok
  · exact .inr herr

theorem configure_returns_sample :
    ((configure sampleConfig).run World.answer podWorld).outcome = .ok () ∨
      ∃ err, ((configure sampleConfig).run World.answer podWorld).outcome = .error err :=
  configure_returns sampleConfig (by decide) World.answer podWorld

def k8sWithoutRoles : GoMap := [("type", .str "kubernetes")]

def kvFromJson : GoMap :=
  [("type", .str "kv"), ("configuration", .smap [("config", .list [.smap [("name", .str "x")]])])]

/-- Leaving out the roles of a `kubernetes` method, or giving a category's entries as
string-keyed maps, makes `Configure` fail a type assertion. -/
theorem configure_panics_on_schema_entries :
    ((configure (authOnly [k8sWithoutRoles])).run World.answer podWorld).outcome =
        .panic "interface conversion" ∧
      ((configure ⟨.ok [], .ok [], .ok [kvFromJson]⟩).run World.answer podWorld).outcome =
        .panic "interface conversion" := by
  decide


/-! ## Where an auth method's configuration is written -/

/-- Where a write for an auth entry of type `t` mounted at `p` may go: a `kubernetes`
entry writes its backend config at `auth/<p>/config` and its roles under
`auth/kubernetes/role/`; every other type writes under `auth/<t>/`. -/
def AuthWritePath (p t path : String) : Prop :=
  if t = "kubernetes" then path = "auth/" ++ p ++ "/config" ∨ ∃ name, path = "auth/kubernetes/role/" ++ name
  else ∃ rest, path = "auth/" ++ t ++ "/" ++ rest

def WritesAt (p t : String) (r : Req) : Prop := ∀ path data, r = .write path data → AuthWritePath p t path

theorem writesAt_of_ne {p t : String} {r : Req} (hr : ∀ path data, r ≠ .write path data) : WritesAt p t r :=
  fun _ _ h => absurd h (hr _ _)

theorem writesAt_write {p t path : String} (data : GoMap) (h : AuthWritePath p t path) :
    WritesAt p t (.write path data) := by
  rintro _ _ ⟨⟩
  exact h

theorem writesAt_under {p t path : String} (ht : t ≠ "kubernetes") (data : GoMap)
    (h : ∃ rest, path = "auth/" ++ t ++ "/" ++ rest) : WritesAt p t (.write path data) :=
  writesAt_write data (by rw [AuthWritePath, if_neg ht]; exact h)

theorem iterate_onlyIssues {P : Req → Prop} {m : List (String × β)} {f : String × β → Prog PUnit}
    (hr : ∀ n, P (.range n)) (hf : ∀ x ∈ m, (f x).OnlyIssues P) :
    ((iterate m).bind fun l => l.forM f).OnlyIssues P :=
  ⟨hr _, fun _ => Prog.OnlyIssues.forM fun _ hx => hf _ (mem_iterate hx)⟩

theorem kubernetesAuthConfig_writes (path : String) :
    (kubernetesAuthConfig path).OnlyIssues (WritesAt path "kubernetes") := by
  unfold kubernetesAuthConfig
  refine Prog.OnlyIssues.bind (fun _ => ?_) ((Prog.onlyIssues_request (writesAt_of_ne (by simp))).orError _)
  refine Prog.OnlyIssues.bind (fun _ => ?_) ((Prog.onlyIssues_request (writesAt_of_ne (by simp))).orError _)
  refine Prog.OnlyIssues.bind (fun _ => ?_) (Prog.onlyIssues_request (writesAt_of_ne (by simp)))
  refine (Prog.onlyIssues_request (writesAt_write _ ?_)).orError _
  rw [AuthWritePath, if_pos rfl]
  exact .inl (by simp only [toString, String.append_assoc, String.append_empty])

theorem configureKubernetesRoles_writes (p : String) (roles : List Value) :
    (configureKubernetesRoles roles).OnlyIssues (WritesAt p "kubernetes") :=
  Prog.OnlyIssues.forM fun _ _ => (Prog.onlyIssues_request (writesAt_write _ (by
    rw [AuthWritePath, if_pos rfl]
    exact .inr ⟨_, rfl⟩))).orError _

theorem configureAwsRoles_writes (p : String) (roles : List Value) :
    (configureAwsRoles roles).OnlyIssues (WritesAt p "aws") :=
  Prog.OnlyIssues.forM fun r _ => (Prog.onlyIssues_request (writesAt_under (by decide) _
    ⟨"role/" ++ (r.castToStringMap.get "name").sprint, by simp only [String.append_assoc]; rfl⟩)).orError _

theorem writeAuthConfig_writes (p t rest kind : String) (ht : t ≠ "kubernetes") (config : GoMap) :
    (writeAuthConfig ("auth/" ++ t ++ "/" ++ rest) kind config).OnlyIssues (WritesAt p t) :=
  (Prog.onlyIssues_request (writesAt_under ht _ ⟨rest, rfl⟩)).orError _

theorem configureGithubMappings_writes (p : String) (mappings : GoMap) :
    (configureGithubMappings mappings).OnlyIssues (WritesAt p "github") :=
  iterate_onlyIssues (fun _ => writesAt_of_ne (by simp)) fun x _ =>
    iterate_onlyIssues (fun _ => writesAt_of_ne (by simp)) fun y _ =>
      (Prog.onlyIssues_request (writesAt_under (by decide) _ ⟨"map/" ++ x.1 ++ "/" ++ y.1, by
        simp only [toString, String.append_assoc, String.append_empty]; rfl⟩)).orError _

theorem configureLdapMappings_writes (p mappingType : String) (mappings : GoMap) :
    (configureLdapMappings mappingType mappings).OnlyIssues (WritesAt p "ldap") :=
  iterate_onlyIssues (fun _ => writesAt_of_ne (by simp)) fun x _ =>
    (Prog.onlyIssues_request (writesAt_under (by decide) _ ⟨mappingType ++ "/" ++ x.1, by
      simp only [toString, String.append_assoc, String.append_empty]; rfl⟩)).orError _

theorem configureAuthType_writes (e : GoMap) (path t : String) :
    (configureAuthType e path t).OnlyIssues (WritesAt path t) :=
  configureAuthType_of_arms (Prog.OnlyIssues (WritesAt path t)) e path (fun hp hf => hp.bind hf)
    (fun hp => hp.tryCatch fun _ => by trivial) trivial
    (fun h => h ▸ ⟨kubernetesAuthConfig_writes path, Prog.onlyIssues_assert _ _,
      fun _ => configureKubernetesRoles_writes _ _⟩)
    (fun h => h ▸ ⟨writeAuthConfig_writes _ "github" "config" _ (by decide) _, configureGithubMappings_writes _ _⟩)
    (fun h => h ▸ ⟨writeAuthConfig_writes _ "aws" "config/client" _ (by decide) _, Prog.onlyIssues_assert _ _,
      fun _ => configureAwsRoles_writes _ _⟩)
    (fun h => h ▸ ⟨writeAuthConfig_writes _ "ldap" "config" _ (by decide) _, configureLdapMappings_writes _ _ _,
      configureLdapMappings_writes _ _ _⟩)

def authPath (e : GoMap) (t : String) : String :=
  match e.lookup? "path" with
  | some (.str path) => path
  | _ => t

theorem entryPath_eq (e : GoMap) (t : String) :
    entryPath e t = .pure (authPath e t) ∨ entryPath e t = .panic "interface conversion" := by
  unfold entryPath authPath
  cases e.lookup? "path" with
  | none => exact .inl rfl
  | some v => cases v <;> first | exact .inl rfl | exact .inr rfl

theorem getOrDefault_eq (e : GoMap) (key : String) :
    (∃ x, getOrDefault e key = .pure x) ∨ getOrDefault e key = .panic "interface conversion" := by
  unfold getOrDefault
  generalize e.get key = v
  cases v <;> first | exact .inl ⟨_, rfl⟩ | exact .inr rfl

/-- Every write for an auth entry of type `t`, mounted at its resolved path `p`, goes
where `AuthWritePath` says: a `kubernetes` entry writes its backend config at
`auth/<p>/config` and its roles under `auth/kubernetes/role/`, and every other type
writes under `auth/<t>/`. Only the `kubernetes` backend config follows the resolved path. -/
theorem configureAuthMethod_writes (existing : String → Option AuthMount) (e : GoMap) (t : String)
    (ht : e.get "type" = .str t) :
    (configureAuthMethod existing e).OnlyIssues (WritesAt (authPath e t) t) := by
  unfold configureAuthMethod
  rw [ht]
  simp only [Value.asString?, assert, Prog.bind_eq, Prog.pure_eq, Prog.pure_bind]
  rcases entryPath_eq e t with hp | hp <;> simp only [hp, Prog.pure_bind, Prog.panic_bind]
  · split
    · exact Prog.OnlyIssues.bind (fun _ => configureAuthType_writes _ _ _)
        ((Prog.onlyIssues_request (writesAt_of_ne (by simp))).orError _)
    · exact configureAuthType_writes _ _ _
  · trivial

theorem configureAuthMethod_writes_k8s :
    (configureAuthMethod (fun _ => none) k8sAtCustomPath).OnlyIssues
      (WritesAt (authPath k8sAtCustomPath "kubernetes") "kubernetes") :=
  configureAuthMethod_writes _ _ "kubernetes" rfl

/-- With the `kubernetes` method at `k8s`, `Configure` writes its role under
`auth/kubernetes/`, outside the method's mount. -/
theorem configure_k8s_role_outside_path :
    ((configure (authOnly [k8sAtCustomPath])).run World.answer podWorld).outcome = .ok () ∧
      writePaths ((configure (authOnly [k8sAtCustomPath])).run World.answer podWorld).trace =
        ["auth/k8s/config", "auth/kubernetes/role/r"] := by
  decide

/-! ## Auth mounts listed once -/

def githubEntry : GoMap := [("type", .str "github")]

/-- Two entries at one path on a fresh server: the second finds no mount in the list taken
before the loop, asks to enable it again, and the refusal fails `Configure`. -/
theorem configure_duplicate_github_fails :
    ((configure (authOnly [githubEntry, githubEntry])).run World.answer podWorld).outcome =
      .error "error enabling github auth method for vault: path is already in use at github/" := by
  decide

/-! ## The requests of each configuration step -/

/-- The requests of the steps that configure one auth method or secret engine once it is
mounted: reads of the pod's files and environment, writes, and map ranges. -/
def Req.ConfigStep : Req → Prop
  | .readFile _ | .getenv _ | .write _ _ | .range _ => True
  | _ => False

theorem entryPath_confined (P : Req → Prop) (e : GoMap) (t : String) : (entryPath e t).Confined P := by
  unfold entryPath
  split
  exacts [Prog.Confined.assert _, trivial]

theorem getOrDefault_confined (P : Req → Prop) (e : GoMap) (key : String) : (getOrDefault e key).Confined P := by
  unfold getOrDefault
  split
  exacts [trivial, Prog.Confined.assert _]

theorem iterate_confined {P : Req → Prop} {m : List (String × β)} {f : String × β → Prog PUnit}
    (hr : ∀ n, P (.range n)) (hf : ∀ x ∈ m, (f x).Confined P) :
    ((iterate m).bind fun l => l.forM f).Confined P :=
  ⟨hr _, fun _ => Prog.Confined.forM fun _ hx => hf _ (mem_iterate hx)⟩

theorem kubernetesAuthConfig_confined (path : String) : (kubernetesAuthConfig path).Confined Req.ConfigStep :=
  ((Prog.Confined.request trivial).orError _).bind fun _ => ((Prog.Confined.request trivial).orError _).bind
    fun _ => (Prog.Confined.request trivial).bind fun _ => (Prog.Confined.request trivial).orError _

theorem configureRoles_confined (rolePath kind : String) (roles : List Value) :
    (configureRoles rolePath kind roles).Confined Req.ConfigStep :=
  Prog.Confined.forM fun _ _ => (Prog.Confined.request trivial).orError _

theorem writeAuthConfig_confined (configPath kind : String) (config : GoMap) :
    (writeAuthConfig configPath kind config).Confined Req.ConfigStep :=
  (Prog.Confined.request trivial).orError _

theorem configureGithubMappings_confined (mappings : GoMap) :
    (configureGithubMappings mappings).Confined Req.ConfigStep :=
  iterate_confined (fun _ => trivial) fun _ _ => iterate_confined (fun _ => trivial) fun _ _ =>
    (Prog.Confined.request trivial).orError _

theorem configureLdapMappings_confined (mappingType : String) (mappings : GoMap) :
    (configureLdapMappings mappingType mappings).Confined Req.ConfigStep :=
  iterate_confined (fun _ => trivial) fun _ _ => (Prog.Confined.request trivial).orError _

theorem configureAuthType_confined (e : GoMap) (path t : String) :
    (configureAuthType e path t).Confined Req.ConfigStep :=
  configureAuthType_of_arms (Prog.Confined Req.ConfigStep) e path (fun hp hf => hp.bind hf)
    (fun hp => hp.tryCatch fun _ => by trivial) trivial
    (fun _ => ⟨kubernetesAuthConfig_confined path, Prog.Confined.assert _,
      fun _ => configureRoles_confined _ _ _⟩)
    (fun _ => ⟨writeAuthConfig_confined _ _ _, configureGithubMappings_confined _⟩)
    (fun _ => ⟨writeAuthConfig_confined _ _ _, Prog.Confined.assert _, fun _ => configureRoles_confined _ _ _⟩)
    (fun _ => ⟨writeAuthConfig_confined _ _ _, configureLdapMappings_confined _ _,
      configureLdapMappings_confined _ _⟩)

theorem configureAuthType_configStep (e : GoMap) (path t : String) :
    (configureAuthType e path t).OnlyIssues Req.ConfigStep :=
  (configureAuthType_confined e path t).onlyIssues

theorem writeSubConfig_confined (path configOption : String) (configData sub : Value) :
    (writeSubConfig path configOption configData sub).Confined Req.ConfigStep := by
  refine Prog.Confined.bind (fun _ => Prog.Confined.bind (fun x => ?_) (Prog.Confined.request trivial))
    (Prog.Confined.assert _)
  rcases x with _ | _ <;> dsimp only <;> (try split) <;> trivial

/-- The loop of `configureSecretEngines` over the configuration of the engine at `path`. -/
theorem configurationLoop_confined (path : String) (configuration : GoMap) :
    ((iterate configuration).bind fun l => l.forM fun x =>
      (assert x.2.asList?).bind fun subConfigs => subConfigs.forM (writeSubConfig path x.1 x.2)).Confined
        Req.ConfigStep :=
  iterate_confined (fun _ => trivial) fun _ _ =>
    (Prog.Confined.assert _).bind fun _ => Prog.Confined.forM fun _ _ => writeSubConfig_confined _ _ _ _

theorem configurationLoop_configStep (path : String) (configuration : GoMap) :
    ((iterate configuration).bind fun l => l.forM fun x =>
      (assert x.2.asList?).bind fun subConfigs => subConfigs.forM (writeSubConfig path x.1 x.2)).OnlyIssues
        Req.ConfigStep :=
  (configurationLoop_confined path configuration).onlyIssues

theorem configureAuthMethod_confined {P : Req → Prop} (hstep : ∀ r, r.ConfigStep → P r)
    (henable : ∀ path options, P (.enableAuth path options)) (existing : String → Option AuthMount) (e : GoMap) :
    (configureAuthMethod existing e).Confined P := by
  unfold configureAuthMethod
  refine (Prog.Confined.assert _).bind fun t => (entryPath_confined _ e t).bind fun path => ?_
  have hdispatch := (configureAuthType_confined e path t).mono hstep
  split <;> dsimp only <;> (try split)
  all_goals first
    | exact hdispatch
    | exact ((Prog.Confined.request (henable _ _)).orError _).bind fun _ => hdispatch

theorem configureSecretEngines_confined {P : Req → Prop} (hstep : ∀ r, r.ConfigStep → P r)
    (hlist : P .listMounts) (hmount : ∀ path input, P (.mount path input))
    (htune : ∀ path input, P (.tuneMount path input)) (c : VaultConfig) :
    (configureSecretEngines c).Confined P := by
  refine (Prog.Confined.orError (by trivial) _).bind fun _ => Prog.Confined.forM fun e _ => ?_
  unfold configureSecretEngine
  refine (Prog.Confined.assert _).bind fun t => (entryPath_confined _ e t).bind fun path =>
    ((Prog.Confined.request hlist).orError _).bind fun mounts => ?_
  have hloop := (configurationLoop_confined path (getOrDefaultStringMap e "configuration")).mono hstep
  split
  · exact (getOrDefault_confined _ _ _).bind fun _ => (getOrDefault_confined _ _ _).bind fun _ =>
      ((Prog.Confined.request (hmount _ _)).orError _).bind fun _ => hloop
  · exact ((Prog.Confined.request (htune _ _)).orError _).bind fun _ => hloop

/-! ## The policies a run leaves -/

def Req.KeepsPolicies (r : Req) : Prop := ∀ name rules, r ≠ .putPolicy name rules

theorem Req.ConfigStep.keepsPolicies {r : Req} (hr : r.ConfigStep) : r.KeepsPolicies := by
  cases r <;> first | exact hr.elim | exact fun _ _ => nofun

theorem configureAuthMethod_keepsPolicies (existing : String → Option AuthMount) (e : GoMap) :
    (configureAuthMethod existing e).OnlyIssues Req.KeepsPolicies :=
  (configureAuthMethod_confined (fun _ => Req.ConfigStep.keepsPolicies) (fun _ _ _ _ => nofun) existing e).onlyIssues

theorem configureSecretEngines_keepsPolicies (c : VaultConfig) :
    (configureSecretEngines c).OnlyIssues Req.KeepsPolicies :=
  (configureSecretEngines_confined (fun _ => Req.ConfigStep.keepsPolicies) (fun _ _ => nofun)
    (fun _ _ _ _ => nofun) (fun _ _ _ _ => nofun) c).onlyIssues

/-- The policies `pol` with each policy of `ps` put over them in turn: the last entry of a
name wins. -/
def putPolicies (ps : List (List (String × String))) (pol : String → Option String) :
    String → Option String :=
  ps.foldl (fun pol policy =>
    Function.update pol ((policy.lookup "name").getD "") (some ((policy.lookup "rules").getD ""))) pol

theorem configurePolicies_post {c : VaultConfig} {ps : List (List (String × String))} (hps : c.policies = .ok ps)
    (u : World) : (configurePolicies c).Post World.answer
      (fun _ w' => w'.server.policies = putPolicies ps u.server.policies) u := by
  unfold configurePolicies
  rw [hps]
  clear hps
  refine Prog.Post.bind (Prog.Post.orError (Prog.Post.pure fun _ h => ?_) _)
  cases h
  induction ps generalizing u with
  | nil => exact Prog.Post.pure rfl
  | cons policy ps ih =>
    refine Prog.Post.bind (Prog.Post.orError (Prog.Post.request fun _ h => ?_) _)
    cases h
    exact ih _

theorem keepsPolicies_post {p : Prog α} (hp : p.OnlyIssues Req.KeepsPolicies) (u : World) :
    p.Post World.answer (fun _ w' => w'.server.policies = u.server.policies) u :=
  Prog.Post.of_onlyIssues (fun r w hr hw => (World.answer_policies r hr w).trans hw) hp rfl

/-- After a `Configure` that succeeds, the server holds the policies it held before, with
each policy of the configuration put over them in turn. -/
theorem configure_puts_policies (c : VaultConfig) (ps : List (List (String × String)))
    (hps : c.policies = .ok ps) (w : World) (hok : ((configure c).run World.answer w).outcome = .ok ()) :
    ((configure c).run World.answer w).world.server.policies = putPolicies ps w.server.policies := by
  refine (?_ : (configure c).Post World.answer
    (fun _ w' => w'.server.policies = putPolicies ps w.server.policies) w) () hok
  unfold configure configureWithToken
  refine Prog.Post.bind (Prog.Post.orError (Prog.Post.request fun _ _ => ?_) _)
  refine Prog.Post.bind (Prog.Post.request (Prog.Post.withDefer ?_))
  refine Prog.Post.bind (Prog.Post.orError (Prog.Post.request fun _ _ => ?_) _)
  refine Prog.Post.bind (Prog.Post.orError (Prog.Post.pure fun es _ => ?_) _)
  refine Prog.Post.bind ((keepsPolicies_post (Prog.OnlyIssues.forM fun e _ =>
    configureAuthMethod_keepsPolicies _ e) _).mono fun _ u₁ h₁ => ?_)
  refine Prog.Post.bind ((Prog.Post.tryCatch_fail (configurePolicies_post hps u₁)).mono fun _ u₂ h₂ => ?_)
  refine Prog.Post.tryCatch_fail ((keepsPolicies_post (configureSecretEngines_keepsPolicies c) u₂).mono
    fun _ _ h => Prog.Post.request ?_)
  exact h.trans (h₂.trans (congrArg _ h₁))

theorem configure_puts_policies_sample :
    ((configure sampleConfig).run World.answer podWorld).outcome = .ok () ∧
      ((configure sampleConfig).run World.answer podWorld).world.server.policies "allow_secrets" =
        some "path \"secret/*\" \x7b capabilities = [\"read\"] \x7d" :=
  have hok : ((configure sampleConfig).run World.answer podWorld).outcome = .ok () := by decide
  ⟨hok, by rw [configure_puts_policies sampleConfig _ rfl podWorld hok]; rfl⟩

end BankVaults
