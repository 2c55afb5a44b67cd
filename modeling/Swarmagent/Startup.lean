import Swarmagent.Docker.Collect
import Swarmagent.Environment
import Swarmagent.Kubernetes.Address
import Swarmagent.Kubernetes.Transport
import Swarmagent.Machine.Checks

/-!
# Starting up

The model of `detect.rs`, and of `main` up to where it has a provider.  The agent decides which
orchestrator it works with and connects to it.  Anything that is missing ends the process, with an
error which says what it is: `startup_checks` lists what is needed, in the order in which it is
looked for.

## What is left open

* `isFile` is `Path::is_file`, and `http` the HTTP client that is built for the sink.
* `DockerClient` is what the client library does to connect.  What it says of the daemon's version
  is only logged.
-/

namespace Swarmagent

open Kubernetes Machine Rust

/-! ## Which orchestrator -/

/-- The orchestrator that the agent works with. -/
inductive Mode where
  | docker
  | kubernetes
deriving DecidableEq

def Mode.asStr : Mode → String
  | .docker => "docker"
  | .kubernetes => "kubernetes"

/-- `in_cluster`: a ServiceAccount token is mounted, and the address of the API server is known. -/
def inCluster (isFile : String → Bool) (env : Env) : Bool :=
  isFile (serviceaccountDir ++ "/token") && (env "KUBERNETES_SERVICE_HOST").any (· ≠ "")

/-- The mode that is asked for, or else the one that is found. -/
def resolve (requested : AgentMode) (kubernetesDetected : Bool) : Mode :=
  match requested with
  | .docker => .docker
  | .kubernetes => .kubernetes
  | .auto => if kubernetesDetected then .kubernetes else .docker

/-! ## Connecting -/

/-- How the client library connects to a daemon. -/
structure DockerClient (δ ε : Type) where
  connectWithLocalDefaults : Except ε δ
  negotiateVersion : δ → Except ε δ

/-- `DockerProvider::connect`. -/
def DockerClient.connect {δ ε : Type} (client : DockerClient δ ε) : Except String δ := do
  let docker ← context "Docker client (check DOCKER_HOST / socket)" client.connectWithLocalDefaults
  context "Docker API version negotiation" (client.negotiateVersion docker)

/-- What the agent is connected to. -/
inductive Connected (δ : Type) where
  | docker (docker : δ)
  | kubernetes (provider : KubernetesProvider String)

section Startup

variable {κ ρ δ ε : Type} (platform : Platform κ ρ ε) (isFile : String → Bool)
variable (http : Except ε ρ) (client : DockerClient δ ε)

/-- `main`, up to where it has a provider. -/
def startup : Except String (Connected δ) := do
  let config := Config.fromEnv platform.env
  let _ ← context "build reqwest client" http
  match resolve config.agentMode (inCluster isFile platform.env) with
  | .docker => .docker <$> client.connect
  | .kubernetes => .kubernetes <$> KubernetesProvider.fromEnv platform config

/-! ## What is needed -/

/-- The certificate of the cluster, if there is one and it can be read. -/
def clusterCa : Option κ :=
  match platform.read (serviceaccountDir ++ "/ca.crt") with
  | .ok pem => (platform.fromPem pem).toOption
  | .error _ => none

/-- A client can be built with the certificate of the cluster. -/
def canBuild (acceptInvalidCerts : Bool) (timeout : Option ℕ) : Bool :=
  (clusterCa platform).any fun ca ↦ (platform.build
    { rootCertificate := ca, acceptInvalidCerts, userAgent := "swarmagent/" ++ packageVersion
      timeout }).isOk

/-- What `KubernetesProvider::from_env` needs. -/
def kubernetesNeeds (cfg : Config) : List (String × Bool) := [
  ("NODE_NAME is required in Kubernetes mode (set it via the Downward API: fieldRef: spec.nodeName)",
    cfg.nodeName.isSome),
  ("KUBERNETES_SERVICE_HOST not set (agent must run inside the cluster)",
    (platform.env "KUBERNETES_SERVICE_HOST").isSome),
  ("read ServiceAccount ca.crt (is the token mounted?)",
    (platform.read (serviceaccountDir ++ "/ca.crt")).isOk),
  ("parse cluster CA", (clusterCa platform).isSome),
  ("build API server client", canBuild platform false none),
  ("build kubelet client", canBuild platform cfg.kubeletInsecureTls (some requestTimeout))]

/-- What `DockerProvider::connect` needs. -/
def dockerNeeds : List (String × Bool) := [
  ("Docker client (check DOCKER_HOST / socket)", client.connectWithLocalDefaults.isOk),
  ("Docker API version negotiation", client.connect.isOk)]

/-- What the agent needs to start. -/
def needs : List (String × Bool) :=
  let config := Config.fromEnv platform.env
  ("build reqwest client", http.isOk) ::
    match resolve config.agentMode (inCluster isFile platform.env) with
    | .docker => dockerNeeds client
    | .kubernetes => kubernetesNeeds platform config

theorem checks_context {α : Type} (text : String) (x : Except ε α) :
    Checks (context text x) [(text, x.isOk)] := by
  cases x with
  | error e => exact (rfl : context text (.error e : Except ε α) = .error text)
  | ok a => exact ⟨a, rfl⟩

theorem checks_require {α : Type} (text : String) (x : Option α) :
    Checks (require text x) [(text, x.isSome)] := by
  cases x with
  | none => exact (rfl : require text (none : Option α) = .error text)
  | some a => exact ⟨a, rfl⟩

theorem checks_connect : Checks client.connect (dockerNeeds client) := by
  refine (checks_context _ _).bind fun docker hdocker ↦ ?_
  have hconnect : client.connect.isOk = (client.negotiateVersion docker).isOk := by
    rw [DockerClient.connect, hdocker]
    show (context _ (client.negotiateVersion docker)).isOk = _
    cases client.negotiateVersion docker <;> rfl
  rw [hconnect]
  exact checks_context _ _

theorem checks_fromEnv (cfg : Config) :
    Checks (KubernetesProvider.fromEnv platform cfg) (kubernetesNeeds platform cfg) := by
  refine (checks_require _ _).bind fun nodeName _ ↦ ?_
  have hclient : Checks (RestClient.inCluster platform cfg.kubeletInsecureTls)
      (kubernetesNeeds platform cfg).tail := by
    refine (checks_require _ _).bind fun host _ ↦ ?_
    refine (checks_context _ _).bind fun pem hpem ↦ ?_
    have hca : clusterCa platform = (platform.fromPem pem).toOption := by
      rw [clusterCa, eq_ok_of_context hpem]
    have hchecks : Checks (context "parse cluster CA" (platform.fromPem pem))
        [("parse cluster CA", (clusterCa platform).isSome)] := by
      rw [hca]
      have hparse := checks_context "parse cluster CA" (platform.fromPem pem)
      cases hpem' : platform.fromPem pem <;> rw [hpem'] at hparse <;> exact hparse
    refine hchecks.bind fun ca hparse ↦ ?_
    have hsome : clusterCa platform = some ca := by
      rw [hca, eq_ok_of_context hparse]
      rfl
    have hbuild : ∀ acceptInvalidCerts timeout,
        canBuild platform acceptInvalidCerts timeout = (platform.build
          { rootCertificate := ca, acceptInvalidCerts
            userAgent := "swarmagent/" ++ packageVersion, timeout }).isOk := by
      intro acceptInvalidCerts timeout
      rw [canBuild, hsome]
      rfl
    rw [hbuild, hbuild]
    refine (checks_context _ _).bind fun http _ ↦ ?_
    exact (checks_context _ _).map
  exact hclient.map

/-- **What the agent needs to start**: it fails with the first thing it does not have, in the order
of the list, and starts if it has everything. -/
theorem startup_checks :
    Checks (startup platform isFile http client) (needs platform isFile http client) := by
  refine (checks_context _ _).bind fun _ _ ↦ ?_
  split
  · exact (checks_connect client).map
  · exact (checks_fromEnv platform _).map

/-- **When the agent starts**, and what it says if it does not. -/
theorem startup_iff :
    ((∃ connected, startup platform isFile http client = .ok connected) ↔
        ∀ need ∈ needs platform isFile http client, need.2 = true) ∧
      ∀ text, startup platform isFile http client = .error text ↔
        firstError (needs platform isFile http client) = some text :=
  have hchecks := startup_checks platform isFile http client
  ⟨hchecks.exists_ok_iff, fun _ ↦ hchecks.eq_error_iff⟩

/-- The agent has started on Kubernetes if this is what it works with. -/
theorem fromEnv_of_startup {provider : KubernetesProvider String}
    (h : startup platform isFile http client = .ok (.kubernetes provider)) :
    resolve (Config.fromEnv platform.env).agentMode (inCluster isFile platform.env) =
        .kubernetes ∧
      KubernetesProvider.fromEnv platform (.fromEnv platform.env) = .ok provider := by
  rw [startup] at h
  obtain ⟨_, -, h⟩ := bind_eq_ok_iff.mp h
  split at h
  · cases hconnect : client.connect <;> rw [hconnect] at h <;> cases h
  · next hmode =>
      refine ⟨hmode, ?_⟩
      cases hprovider : KubernetesProvider.fromEnv platform (.fromEnv platform.env) with
      | error e =>
          rw [hprovider] at h
          cases h
      | ok provider' =>
          rw [hprovider] at h
          cases h
          rfl

/-- **On Kubernetes.**  An agent that has started knows its node, and has a client whose HTTP client
for the API server accepts no invalid certificate.  With it, whatever the cluster answers and
however the token changes, a tick sends the requests of a tick, the watch loop those for watching
the pods of the node, and each request comes right after the token has been read, and bears it.  If
the platform stands still, what the tick comes to is `status`. -/
theorem kubernetes_of_startup {provider : KubernetesProvider String}
    (h : startup platform isFile http client = .ok (.kubernetes provider)) :
    provider.nodeName ≠ "" ∧
    ∃ c, Client.Verifies platform (Config.fromEnv platform.env).kubeletInsecureTls c ∧
      (∀ bodies, ((Requests.status provider).interp (Client.call c)).eval
        (Client.answers platform bodies) = provider.status) ∧
      (∀ (t : List (Client.Exchange ρ ε)) r,
        Program.Run ((Requests.status provider).interp (Client.call c)) t r →
          ∃ nodeIp, Client.Sends c {q | q ∈ Requests.tickCalls provider nodeIp} t) ∧
      ∀ timestampOf fromSlice s ambients (t : List (Client.Exchange ρ ε)) r,
        Program.Run ((Requests.runEvents provider timestampOf fromSlice s ambients).interp
          (Client.call c)) t r → Client.Sends c {.watch provider.watchPath} t := by
  obtain ⟨-, hprovider⟩ := fromEnv_of_startup platform isFile http client h
  obtain ⟨c, hverifies, hclient, hname⟩ := Client.exists_client_of_fromEnv hprovider
  refine ⟨nonEmpty_ne hname, c, hverifies, fun bodies ↦ ?_,
    fun _ _ ↦ Client.sends_of_status, fun _ _ _ _ _ _ ↦ Client.sends_of_runEvents⟩
  rw [Client.eval_interp_status, hclient]

/-- With a provider, the agent starts. -/
theorem startup_of_fromEnv {r : ρ} {provider : KubernetesProvider String}
    (hmode : resolve (Config.fromEnv platform.env).agentMode (inCluster isFile platform.env) =
      .kubernetes)
    (hprovider : KubernetesProvider.fromEnv platform (.fromEnv platform.env) = .ok provider) :
    startup platform isFile (.ok r) client = .ok (.kubernetes provider) := by
  have hbind : ∀ {α β : Type} (a : α) (f : α → Except String β),
      (Except.ok a >>= f) = f a := fun _ _ ↦ rfl
  have hcontext : context "build reqwest client" (.ok r : Except ε ρ) = .ok r := rfl
  simp only [startup, hcontext, hbind, hmode, hprovider]
  rfl

end Startup

/-- Two attempts to watch, with the token rotated between them. -/
theorem kubernetes_of_startup_rotated :
    let env : Env := fun key ↦
      if key = "KUBERNETES_SERVICE_HOST" then some "10.96.0.1"
      else if key = "NODE_NAME" then some "node-1" else none
    let docker : DockerClient Unit Unit :=
      { connectWithLocalDefaults := .error (), negotiateVersion := fun _ ↦ .error () }
    ∃ provider,
      startup (workingPlatform env) (fun _ ↦ true) (.ok ()) docker = .ok (.kubernetes provider) ∧
      ∃ c : RestClient Unit,
        let read : String → Client.Exchange Unit Unit := fun text ↦
          ⟨.readToString c.tokenPath, .ok text⟩
        let refused : String → Client.Exchange Unit Unit := fun bearer ↦
          ⟨.send c.http { url := c.base ++ provider.watchPath, bearer, timeout := none }, .error ()⟩
        Client.Sends c {.watch provider.watchPath}
          [read "old\n", refused "old", read "new\n", refused "new"] := by
  intro env docker
  have hmode : (Config.fromEnv env).agentMode = .auto := by
    rw [Config.fromEnv_agentMode, getString_of_unset (Or.inl rfl)]
    decide
  have hname : (Config.fromEnv env).nodeName = some "node-1" := by
    rw [Config.fromEnv_nodeName, show env "NODE_NAME" = some "node-1" from rfl]
    decide
  obtain ⟨client, hclient⟩ := inCluster_workingPlatform
    (show env "KUBERNETES_SERVICE_HOST" = some "10.96.0.1" from rfl)
    (Config.fromEnv env).kubeletInsecureTls
  obtain ⟨provider, hprovider⟩ : ∃ provider,
      KubernetesProvider.fromEnv (workingPlatform env) (Config.fromEnv env) = .ok provider := by
    rw [KubernetesProvider.fromEnv, hname, hclient]
    exact ⟨_, rfl⟩
  have hstart : startup (workingPlatform env) (fun _ ↦ true) (.ok ()) docker =
      .ok (.kubernetes provider) := by
    refine startup_of_fromEnv _ _ _ ?_ hprovider
    rw [show (workingPlatform env).env = env from rfl, hmode]
    rfl
  have hold : trim "old\n" = "old" := by decide
  have hnew : trim "new\n" = "new" := by decide
  let ambient : Ambient := { now := fun _ ↦ 0, order := fun _ ↦ .unspecified }
  obtain ⟨-, c, -, -, -, hevents⟩ := kubernetes_of_startup _ _ _ _ hstart
  refine ⟨provider, hstart, c, ?_⟩
  rw [← hold, ← hnew]
  exact hevents (fun _ ↦ none) (fun _ ↦ none) .init [ambient, ambient] _ _
    (.ask (.ask (.ask (.ask (.done _)))))

end Swarmagent
