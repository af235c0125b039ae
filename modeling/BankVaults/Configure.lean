import BankVaults.Bootstrap

/-!
# `vault.go`: reconciling auth methods, policies and secret engines

`Configure` and the functions it calls. `viper.UnmarshalKey` reads the parsed
configuration file; `VaultConfig` holds, for each top-level key, its decoded value
or the decoding error. The near-identical `configure*Config` and `configure*Roles`
functions are `writeAuthConfig` and `configureRoles` at their own path and name.
-/

namespace BankVaults

structure VaultConfig where
  auth : Except String (List GoMap)
  policies : Except String (List (List (String × String)))
  secrets : Except String (List GoMap)

/-- Go's `strings.Contains`. -/
def stringsContains (s substr : String) : Bool := go s.data
where
  go : List Char → Bool
    | [] => substr.data.isEmpty
    | c :: cs => substr.data.isPrefixOf (c :: cs) || go cs

def isOverwriteProbihitedError (err : String) : Bool :=
  stringsContains err "delete them before reconfiguring"

def getOrDefault (m : GoMap) (key : String) : Prog String :=
  match m.get key with
  | .null => pure ""
  | value => assert value.asString?

def getOrDefaultStringMapString (m : GoMap) (key : String) : List (String × String) :=
  match m.get key with
  | .null => []
  | value => value.castToStringMapString

def getOrDefaultStringMap (m : GoMap) (key : String) : GoMap :=
  match m.get key with
  | .null => []
  | value => value.castToStringMap

namespace Vault

def kubernetesAuthConfig (path : String) : Prog Unit := do
  let kubernetesCACert ← (readFile "/var/run/secrets/kubernetes.io/serviceaccount/ca.crt").orError id
  let tokenReviewerJWT ← (readFile "/var/run/secrets/kubernetes.io/serviceaccount/token").orError id
  let host ← getenv "KUBERNETES_SERVICE_HOST"
  let config : GoMap :=
    [("kubernetes_host", .str ("https://" ++ host)), ("kubernetes_ca_cert", .str kubernetesCACert),
      ("token_reviewer_jwt", .str tokenReviewerJWT)]
  (logicalWrite s!"auth/{path}/config" config).orError id

def configurePolicies (c : VaultConfig) : Prog Unit := do
  let policies ← (pure c.policies : Prog _).orError fun err =>
    s!"error unmarshalling vault policy config: {err}"
  policies.forM fun policy => do
    let name := (policy.lookup "name").getD ""
    (sysPutPolicy name ((policy.lookup "rules").getD "")).orError fun err =>
      s!"error putting {name} policy into vault: {err}"

/-- `configureKubernetesRoles` and `configureAwsRoles`: each role is written verbatim
under `rolePath` and its name. -/
def configureRoles (rolePath kind : String) (roles : List Value) : Prog Unit :=
  roles.forM fun roleInterface => do
    let role := roleInterface.castToStringMap
    let name := role.get "name"
    let shown := name.fmtS
    (logicalWrite (rolePath ++ name.sprint) role).orError fun err =>
      s!"error putting {shown} {kind} role into vault: {err}"

def configureKubernetesRoles (roles : List Value) : Prog Unit :=
  configureRoles "auth/kubernetes/role/" "kubernetes" roles

def configureAwsRoles (roles : List Value) : Prog Unit :=
  configureRoles "auth/aws/role/" "aws" roles

/-- `configureGithubConfig`, `configureAwsConfig` and `configureLdapConfig`. -/
def writeAuthConfig (configPath kind : String) (config : GoMap) : Prog Unit := do
  let shown := (Value.smap config).fmtS
  (logicalWrite configPath config).orError fun err =>
    s!"error putting {shown} {kind} config into vault: {err}"

def configureGithubConfig (config : GoMap) : Prog Unit :=
  writeAuthConfig "auth/github/config" "github" config

def configureAwsConfig (config : GoMap) : Prog Unit :=
  writeAuthConfig "auth/aws/config/client" "aws" config

def configureLdapConfig (config : GoMap) : Prog Unit :=
  writeAuthConfig "auth/ldap/config" "ldap" config

def configureGithubMappings (mappings : GoMap) : Prog Unit := do
  (← iterate mappings).forM fun (mappingType, mapping) => do
    (← iterate mapping.castToStringMapString).forM fun (userOrTeam, policy) => do
      (logicalWrite s!"auth/github/map/{mappingType}/{userOrTeam}" [("value", .str policy)]).orError
        fun err => s!"error putting {mappingType} github mapping into vault: {err}"

def configureLdapMappings (mappingType : String) (mappings : GoMap) : Prog Unit := do
  (← iterate (Value.smap mappings).castToStringMap).forM fun (userOrGroup, policy) => do
    let mapping := policy.castToStringMap
    (logicalWrite s!"auth/ldap/{mappingType}/{userOrGroup}" mapping).orError fun err =>
      s!"error putting {mappingType} ldap mapping into vault: {err}"

/-- The mount path of an auth or secrets entry: its `path`, else its `type`. -/
def entryPath (entry : GoMap) (entryType : String) : Prog String :=
  match entry.lookup? "path" with
  | some pathOverwrite => assert pathOverwrite.asString?
  | none => pure entryType

/-- The `switch authMethodType` in the loop of `Configure`: the configuration of one
auth method of type `authMethodType`, mounted at `path`. -/
def configureAuthType (authMethod : GoMap) (path : String) : String → Prog Unit
  | "kubernetes" => do
    try kubernetesAuthConfig path
    catch err => throw s!"error configuring kubernetes auth for vault: {err}"
    let roles ← assert (authMethod.get "roles").asList?
    try configureKubernetesRoles roles
    catch err => throw s!"error configuring kubernetes auth roles for vault: {err}"
  | "github" => do
    try configureGithubConfig (authMethod.get "config").castToStringMap
    catch err => throw s!"error configuring github auth for vault: {err}"
    try configureGithubMappings (authMethod.get "map").castToStringMap
    catch err => throw s!"error configuring github mappings for vault: {err}"
  | "aws" => do
    try configureAwsConfig (authMethod.get "config").castToStringMap
    catch err => throw s!"error configuring aws auth for vault: {err}"
    let roles ← assert (authMethod.get "roles").asList?
    try configureAwsRoles roles
    catch err => throw s!"error configuring aws auth roles for vault: {err}"
  | "ldap" => do
    try configureLdapConfig (authMethod.get "config").castToStringMap
    catch err => throw s!"error configuring ldap auth for vault: {err}"
    try configureLdapMappings "groups" (authMethod.get "groups").castToStringMap
    catch err => throw s!"error configuring ldap groups for vault: {err}"
    try configureLdapMappings "users" (authMethod.get "users").castToStringMap
    catch err => throw s!"error configuring ldap users for vault: {err}"
  | _ => pure ()

/-- The body of the loop of `Configure` over the auth methods. -/
def configureAuthMethod (existingAuths : String → Option AuthMount) (authMethod : GoMap) :
    Prog Unit := do
  let authMethodType ← assert (authMethod.get "type").asString?
  let path ← entryPath authMethod authMethodType
  -- Check and skip existing auth mounts
  let mountExists := match existingAuths (path ++ "/") with
    | some authMount => authMount.type == authMethodType
    | none => false
  if !mountExists then
    (sysEnableAuthWithOptions path ⟨authMethodType⟩).orError fun err =>
      s!"error enabling {authMethodType} auth method for vault: {err}"
  configureAuthType authMethod path authMethodType

/-- One nested configuration entry of a secret engine, written to `path/configOption/name`;
an overwrite the server refuses is skipped (`continue`). -/
def writeSubConfig (path configOption : String) (configData : Value) (subConfigData : Value) :
    Prog Unit := do
  let subConfigData ← assert subConfigData.asIMap?
  let name := (imapGet subConfigData "name").fmtS
  let configPath := s!"{path}/{configOption}/{name}"
  match ← logicalWrite configPath (Value.imap subConfigData).castToStringMap with
  | .ok _ => pure ()
  | .error err =>
    if isOverwriteProbihitedError err then
      pure ()
    else
      let shown := configData.sprint
      throw s!"error putting {shown} -> {configPath} config into vault: {err}"

/-- The body of the loop of `configureSecretEngines`. -/
def configureSecretEngine (secretEngine : GoMap) : Prog Unit := do
  let secretEngineType ← assert (secretEngine.get "type").asString?
  let path ← entryPath secretEngine secretEngineType
  let mounts ← sysListMounts.orError fun err => s!"error reading mounts from vault: {err}"
  if !mounts (path ++ "/") then
    let description ← getOrDefault secretEngine "description"
    let pluginName ← getOrDefault secretEngine "plugin_name"
    let input : MountInput :=
      { type := secretEngineType, description := description, pluginName := pluginName
        options := getOrDefaultStringMapString secretEngine "options" }
    (sysMount path input).orError fun err => s!"error mounting {path} into vault: {err}"
  else
    let input : MountConfigInput := { options := getOrDefaultStringMapString secretEngine "options" }
    (sysTuneMount path input).orError fun err => s!"error tuning {path} in vault: {err}"
  -- Configuration of the Secret Engine in a very generic manner, YAML config file should have the proper format
  let configuration := getOrDefaultStringMap secretEngine "configuration"
  (← iterate configuration).forM fun (configOption, configData) => do
    let subConfigs ← assert configData.asList?
    subConfigs.forM (writeSubConfig path configOption configData)

def configureSecretEngines (c : VaultConfig) : Prog Unit := do
  let secretsEngines ← (pure c.secrets : Prog _).orError fun err =>
    s!"error unmarshalling vault secrets config: {err}"
  secretsEngines.forM configureSecretEngine

/-- What `Configure` does while the root token is installed. -/
def configureWithToken (c : VaultConfig) : Prog Unit := do
  let existingAuths ← sysListAuth.orError fun err => s!"error listing auth backends vault: {err}"
  let authMethods ← (pure c.auth : Prog _).orError fun err =>
    s!"error unmarshalling vault auth methods config: {err}"
  authMethods.forM (configureAuthMethod existingAuths)
  try configurePolicies c
  catch err => throw s!"error configuring policies for vault: {err}"
  try configureSecretEngines c
  catch err => throw s!"error configuring secret engines for vault: {err}"

def configure (c : VaultConfig) : Prog Unit := do
  let key := rootTokenKey
  let rootToken ← (kvGet key).orError fun err => s!"unable to get key '{key}': {err.error}"
  setToken rootToken
  -- Clear the token and GC it
  (configureWithToken c).withDefer (setToken "")

end Vault

end BankVaults
