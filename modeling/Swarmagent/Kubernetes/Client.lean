import Swarmagent.Kubernetes.Status

/-!
# The client

The model of `client.rs`, and of how `KubernetesProvider::from_env` gets a client.  The address of
the API server is in two environment variables, from which the base of all URLs is put together
(`base_of_inCluster`).  The kubelet is asked directly if its mode and an address allow it
(`fetchSummary_eq`).

## What is left open

Files, certificates, the building of HTTP clients and the sending of requests are what the platform
makes of them (`Platform`).  Of an error only the context is kept that the agent adds to it.
-/

namespace Swarmagent.Kubernetes

open Swarmagent.Json Swarmagent.Rust

/-- `SERVICEACCOUNT_DIR`. -/
def serviceaccountDir : String := "/var/run/secrets/kubernetes.io/serviceaccount"

/-- `REQUEST_TIMEOUT`, in seconds. -/
def requestTimeout : ℕ := 30

/-- What an HTTP client is built from. -/
structure ClientOptions (κ : Type) where
  rootCertificate : κ
  acceptInvalidCerts : Bool
  userAgent : String
  timeout : Option ℕ

structure Request where
  url : String
  bearer : String
  timeout : Option ℕ

structure Response (ε : Type) where
  status : ℕ
  /-- The status as it is shown. -/
  statusText : String
  text : Except ε String
  json : Except ε Value

/-- `status.is_success()`. -/
def Response.isSuccess {ε : Type} (r : Response ε) : Bool := 200 ≤ r.status && r.status < 300

/-- What the agent runs on. -/
structure Platform (κ ρ ε : Type) where
  env : Env
  read : String → Except ε (List UInt8)
  readToString : String → Except ε String
  /-- `reqwest::Certificate::from_pem`. -/
  fromPem : List UInt8 → Except ε κ
  build : ClientOptions κ → Except ε ρ
  send : ρ → Request → Except ε (Response ε)

/-- The fields of `KubeClient`. -/
structure RestClient (ρ : Type) where
  base : String
  tokenPath : String
  /-- For the API server. -/
  http : ρ
  /-- For the kubelet. -/
  kubelet : ρ

section Client

variable {κ ρ ε : Type} (platform : Platform κ ρ ε)

/-- `with_context`: an error is replaced by what was being done. -/
def context {α : Type} (text : String) (x : Except ε α) : Except String α := x.mapError fun _ ↦ text

/-- `context` of an `Option`: what is missing. -/
def require {α : Type} (text : String) : Option α → Except String α
  | some a => .ok a
  | none => .error text

namespace RestClient

/-- `in_cluster`. -/
def inCluster (kubeletInsecureTls : Bool) : Except String (RestClient ρ) := do
  let host ← require "KUBERNETES_SERVICE_HOST not set (agent must run inside the cluster)"
    (platform.env "KUBERNETES_SERVICE_HOST")
  let port := (platform.env "KUBERNETES_SERVICE_PORT").getD "443"
  let caPem ← context "read ServiceAccount ca.crt (is the token mounted?)"
    (platform.read (serviceaccountDir ++ "/ca.crt"))
  let ca ← context "parse cluster CA" (platform.fromPem caPem)
  let userAgent := "swarmagent/" ++ packageVersion
  let http ← context "build API server client" (platform.build
    { rootCertificate := ca, acceptInvalidCerts := false, userAgent, timeout := none })
  let kubelet ← context "build kubelet client" (platform.build
    { rootCertificate := ca, acceptInvalidCerts := kubeletInsecureTls, userAgent
      timeout := some requestTimeout })
  return {
    base := "https://" ++ host ++ ":" ++ port
    tokenPath := serviceaccountDir ++ "/token"
    http, kubelet }

variable (c : RestClient ρ)

/-- `token`, which is read again for every request. -/
def token : Except String String :=
  (context "read ServiceAccount token" (platform.readToString c.tokenPath)).map trim

/-- A `GET` of the URL.  Errors name it by the label. -/
def get (client : ρ) (url label : String) (timeout : Option ℕ) : Except String Value := do
  let bearer ← c.token platform
  let resp ← context ("GET " ++ label) (platform.send client { url, bearer, timeout })
  if resp.isSuccess then
    context ("parse JSON from " ++ label) resp.json
  else
    let body := match resp.text with
      | .ok text => text
      | .error _ => ""
    .error ("GET " ++ label ++ " returned " ++ resp.statusText ++ ": " ++ body)

def getJson (path : String) : Except String Value :=
  c.get platform c.http (c.base ++ path) path (some requestTimeout)

def kubeletGetJson (url : String) : Except String Value :=
  c.get platform c.kubelet url url none

/-- What the requests of the client return. -/
def toKubeClient : KubeClient String where
  getJson := c.getJson platform
  kubeletGetJson := c.kubeletGetJson platform

end RestClient

/-- `KubernetesProvider::from_env`. -/
def KubernetesProvider.fromEnv (cfg : Config) : Except String (KubernetesProvider String) := do
  let nodeName ← require ("NODE_NAME is required in Kubernetes mode " ++
    "(set it via the Downward API: fieldRef: spec.nodeName)") cfg.nodeName
  let client ← RestClient.inCluster platform cfg.kubeletInsecureTls
  return {
    client := client.toKubeClient platform
    kubeletMode := cfg.kubeletMode
    nodeIp := cfg.nodeIp
    nodeName }

end Client

/-! ## URLs -/

/-- A program that succeeds has succeeded so far. -/
theorem bind_eq_ok_iff {ε α β : Type} {x : Except ε α} {f : α → Except ε β} {b : β} :
    (x >>= f) = .ok b ↔ ∃ a, x = .ok a ∧ f a = .ok b := by
  cases x with
  | error e => exact iff_of_false nofun (by rintro ⟨_, ⟨⟩, -⟩)
  | ok a =>
      constructor
      · exact fun h ↦ ⟨a, rfl, h⟩
      · rintro ⟨_, ⟨⟩, h⟩
        exact h

/-- What goes well has gone well without the context. -/
theorem eq_ok_of_context {ε α : Type} {text : String} {x : Except ε α} {a : α}
    (h : context text x = .ok a) : x = .ok a := by
  cases x with
  | error e => cases h
  | ok a' => exact congrArg Except.ok (Except.ok.inj h)

section Urls

variable {κ ρ ε : Type} {platform : Platform κ ρ ε}

/-- **The base** of the URLs of the API server. -/
theorem base_of_inCluster {insecure : Bool} {c : RestClient ρ} {host : String}
    (hhost : platform.env "KUBERNETES_SERVICE_HOST" = some host)
    (h : RestClient.inCluster platform insecure = .ok c) :
    c.base = "https://" ++ host ++ ":" ++
      (platform.env "KUBERNETES_SERVICE_PORT").getD "443" := by
  rw [RestClient.inCluster, hhost] at h
  obtain ⟨_, ⟨⟩, h⟩ := bind_eq_ok_iff.mp h
  obtain ⟨caPem, -, h⟩ := bind_eq_ok_iff.mp h
  obtain ⟨ca, -, h⟩ := bind_eq_ok_iff.mp h
  obtain ⟨http, -, h⟩ := bind_eq_ok_iff.mp h
  obtain ⟨kubelet, -, h⟩ := bind_eq_ok_iff.mp h
  cases h
  rfl

/-- What the provider takes from the configuration. -/
theorem config_of_fromEnv {cfg : Config} {provider : KubernetesProvider String}
    (h : KubernetesProvider.fromEnv platform cfg = .ok provider) :
    provider.nodeIp = cfg.nodeIp ∧ provider.kubeletMode = cfg.kubeletMode := by
  rw [KubernetesProvider.fromEnv] at h
  obtain ⟨nodeName, -, h⟩ := bind_eq_ok_iff.mp h
  obtain ⟨client, -, h⟩ := bind_eq_ok_iff.mp h
  cases h
  exact ⟨rfl, rfl⟩

end Urls

namespace KubernetesProvider

variable {ε : Type} (provider : KubernetesProvider ε)

/-- The URL at which the kubelet is asked directly, if it is.  A configured address comes before
that of the Node object. -/
def directUrl (nodeIp : Option String) : Option String :=
  match provider.kubeletMode with
  | .direct => (provider.nodeIp.or nodeIp).map fun ip ↦ "https://" ++ ip ++ ":10250/stats/summary"
  | .proxy => none

/-- The summary is what the kubelet returns at that URL, or else what the API server returns. -/
theorem fetchSummary_eq (nodeIp : Option String) :
    provider.fetchSummary nodeIp =
      match (provider.directUrl nodeIp).map provider.client.kubeletGetJson with
      | some (.ok v) => .ok v
      | _ => provider.client.getJson
          ("/api/v1/nodes/" ++ provider.nodeName ++ "/proxy/stats/summary") := by
  unfold fetchSummary directUrl
  cases provider.kubeletMode with
  | proxy => rfl
  | direct =>
      cases provider.nodeIp.or nodeIp with
      | none => rfl
      | some ip =>
          simp only [Option.map_some]
          split
          · next h => rw [h]
          · next h => rw [h]

end KubernetesProvider

end Swarmagent.Kubernetes
