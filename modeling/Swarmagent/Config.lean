import Swarmagent.Rust.Float
import Swarmagent.Rust.Int
import Swarmagent.Rust.Str

/-!
# Configuration

The model of `config.rs`.  All settings are read from environment variables, and a variable that is
not set, empty where that makes no sense, or cannot be read stands for a default.

There are two ways to tell the agent where Swarmbot is, a base URL and the URL of the events
endpoint, and the health check is derived from either.  Slashes behind a base URL make no
difference.  Slashes behind the URL of the endpoint do: the suffix `/events` is stripped before the
slashes are trimmed, so then it is not, and the agent waits for the health of `/events/version` for
good (`pointsAt_iff`).

## What is left open

A variable is a text if it is set.  One that is not Unicode is as good as not set.  A text with a
NUL in it is a text like any other, although no system lets one be set.  Numbers are of 64 bits.
-/

namespace Swarmagent

open Rust

/-- The environment of the process. -/
abbrev Env := String → Option String

/-- Which orchestrator the agent is asked to work with. -/
inductive AgentMode where
  /-- The one that is found. -/
  | auto
  | docker
  | kubernetes
deriving DecidableEq

namespace Kubernetes

/-- How the summary is fetched. -/
inductive KubeletMode where
  /-- From the kubelet itself, and through the API server if that fails. -/
  | direct
  /-- Through the API server. -/
  | proxy
deriving DecidableEq

end Kubernetes

@[ext]
structure Config where
  agentMode : AgentMode
  /-- In seconds. -/
  statsFrequency : UInt64
  eventEndpoint : String
  healthCheckEndpoint : String
  debugEvent : Bool
  debugStats : Bool
  statsMaxConcurrency : UInt64
  nodeName : Option String
  nodeIp : Option String
  kubeletInsecureTls : Bool
  kubeletMode : Kubernetes.KubeletMode
  sharedSecret : Option String

/-! ## Reading variables -/

/-- `v.parse::<u64>().ok()`: digits, which may have a plus sign in front. -/
def parseU64 (v : String) : Option UInt64 :=
  let (digits, rest) := readDigits <| match v.toList with
    | '+' :: l => l
    | l => l
  if digits.chars = [] ∨ rest ≠ [] ∨ 2 ^ 64 ≤ digits.value then none
  else some (.ofNat digits.value)

/-- `v.parse::<bool>().ok()`. -/
def parseBool : String → Option Bool
  | "true" => some true
  | "false" => some false
  | _ => none

/-- `non_empty`. -/
def nonEmpty (v : Option String) : Option String := (v.map trim).filter (· ≠ "")

def parseAgentMode (raw : String) : AgentMode :=
  match String.ofList (toAsciiLowercase (trim raw)) with
  | "docker" | "swarm" => .docker
  | "kubernetes" | "k8s" | "k3s" => .kubernetes
  | _ => .auto

def parseKubeletMode (raw : String) : Kubernetes.KubeletMode :=
  match String.ofList (toAsciiLowercase (trim raw)) with
  | "proxy" => .proxy
  | _ => .direct

def trimTrailingSlash (url : String) : String := trimEndMatches url '/'

def endpointFromBase (base path : String) : String := base ++ path

section Env

variable (env : Env)

def getString (key default : String) : String :=
  match env key with
  | some v => if v ≠ "" then v else default
  | none => default

/-- `swarmbot_base_url`: from `SWARMBOT_URL`, or else derived from `EVENT_ENDPOINT`. -/
def swarmbotBaseUrl : String :=
  let direct := getString env "SWARMBOT_URL" ""
  if direct ≠ "" then trimTrailingSlash direct
  else
    let event := getString env "EVENT_ENDPOINT" "http://app:8080/events"
    trimTrailingSlash ((stripSuffix event "/events").getD event)

/-- A variable that is parsed, or the default if it is not set or cannot be. -/
def parseEnv {α : Type} (parse : String → Option α) (key : String) (default : α) : α :=
  ((env key).bind parse).getD default

def parseBoolEnv (key : String) (default : Bool) : Bool := parseEnv env parseBool key default

def parseU64Env (key : String) (default : UInt64) : UInt64 := parseEnv env parseU64 key default

def parseUsizeEnv (key : String) (default : UInt64) : UInt64 := parseEnv env parseU64 key default

/-- `Config::from_env`. -/
def Config.fromEnv : Config :=
  let base := swarmbotBaseUrl env
  { agentMode := parseAgentMode (getString env "AGENT_MODE" "auto")
    statsFrequency := max (parseU64Env env "STATS_FREQUENCY" 30) 1
    eventEndpoint := getString env "EVENT_ENDPOINT" (endpointFromBase base "/events")
    healthCheckEndpoint :=
      getString env "HEALTH_CHECK_ENDPOINT" (endpointFromBase base "/version")
    debugEvent := parseBoolEnv env "DEBUG_EVENT" false
    debugStats := parseBoolEnv env "DEBUG_STATS" false
    statsMaxConcurrency := min (max (parseUsizeEnv env "STATS_MAX_CONCURRENCY" 32) 1) 512
    nodeName := nonEmpty (env "NODE_NAME")
    nodeIp := nonEmpty (env "NODE_IP")
    kubeletInsecureTls := parseBoolEnv env "AGENT_KUBELET_INSECURE_TLS" true
    kubeletMode := parseKubeletMode (getString env "AGENT_KUBELET_MODE" "direct")
    sharedSecret := nonEmpty (env "SWARMAGENT_SHARED_SECRET") }

/-- A variable that is empty where a text is asked for is as good as not set. -/
def Unset (key : String) : Prop := env key = none ∨ env key = some ""

section Variables

variable {env} {key default v : String}

theorem getString_of_unset (h : Unset env key) : getString env key default = default := by
  rcases h with h | h
  · rw [getString, h]
  · rw [getString, h]
    exact if_neg (not_not_intro rfl)

theorem getString_of_set (h : env key = some v) (hv : v ≠ "") :
    getString env key default = v := by
  rw [getString, h]
  exact if_pos hv

theorem getString_update_self (hv : v ≠ "") :
    getString (Function.update env key (some v)) key default = v :=
  getString_of_set (Function.update_self key (some v) env) hv

theorem getString_update_of_ne {key' : String} (h : key' ≠ key) {v : Option String} :
    getString (Function.update env key v) key' default = getString env key' default := by
  rw [getString, getString, Function.update_of_ne h]

theorem parseEnv_update_of_ne {α : Type} {parse : String → Option α} {key' : String}
    (h : key' ≠ key) {v : Option String} {default : α} :
    parseEnv (Function.update env key v) parse key' default = parseEnv env parse key' default := by
  rw [parseEnv, parseEnv, Function.update_of_ne h]

theorem nonEmpty_ne {text : String} (h : nonEmpty (env key) = some text) : text ≠ "" := by
  obtain ⟨-, htext⟩ := Option.filter_eq_some_iff.mp h
  exact of_decide_eq_true htext

end Variables

@[simp] theorem Config.fromEnv_nodeName : (fromEnv env).nodeName = nonEmpty (env "NODE_NAME") := rfl

@[simp] theorem Config.fromEnv_nodeIp : (fromEnv env).nodeIp = nonEmpty (env "NODE_IP") := rfl

@[simp] theorem Config.fromEnv_kubeletMode :
    (fromEnv env).kubeletMode =
      parseKubeletMode (getString env "AGENT_KUBELET_MODE" "direct") := by
  simp only [fromEnv]

/-- Whatever the environment is, statistics are taken once a second at most and of 512 containers at
a time at most, and a text that is given is not empty. -/
theorem Config.fromEnv_bounds :
    1 ≤ (fromEnv env).statsFrequency ∧ 1 ≤ (fromEnv env).statsMaxConcurrency ∧
      (fromEnv env).statsMaxConcurrency ≤ 512 ∧
      (fromEnv env).nodeName ≠ some "" ∧ (fromEnv env).nodeIp ≠ some "" ∧
      (fromEnv env).sharedSecret ≠ some "" := by
  have hfrequency : 1 ≤ (fromEnv env).statsFrequency := by
    rw [UInt64.le_iff_toNat_le, fromEnv, toNat_max]
    exact le_max_right _ 1
  have hone : 1 ≤ (fromEnv env).statsMaxConcurrency := by
    rw [UInt64.le_iff_toNat_le, fromEnv, toNat_min, toNat_max]
    exact le_min (le_max_right _ 1) (by decide)
  have hmax : (fromEnv env).statsMaxConcurrency ≤ 512 := by
    rw [UInt64.le_iff_toNat_le, fromEnv, toNat_min]
    exact min_le_right _ 512
  exact ⟨hfrequency, hone, hmax, fun h ↦ nonEmpty_ne h rfl, fun h ↦ nonEmpty_ne h rfl,
    fun h ↦ nonEmpty_ne h rfl⟩

end Env

/-! ## Where Swarmbot is -/

/-- So many slashes. -/
def slashes (n : ℕ) : String := String.ofList (List.replicate n '/')

/-- A base URL, to which paths can be added. -/
def IsBase (b : String) : Prop := b ≠ "" ∧ b.toList.getLast? ≠ some '/'

/-- The agent can be told where Swarmbot is by a base URL with `n` slashes behind it or by the URL
of the events endpoint with `m`. -/
structure PointsAt (b : String) (n m : ℕ) : Prop where
  url : ∀ env : Env, env "SWARMBOT_URL" = some (b ++ slashes n) → Unset env "EVENT_ENDPOINT" →
    Unset env "HEALTH_CHECK_ENDPOINT" →
    (Config.fromEnv env).eventEndpoint = b ++ "/events" ∧
      (Config.fromEnv env).healthCheckEndpoint = b ++ "/version"
  event : ∀ env : Env, Unset env "SWARMBOT_URL" →
    env "EVENT_ENDPOINT" = some (b ++ "/events" ++ slashes m) →
    Unset env "HEALTH_CHECK_ENDPOINT" →
    (Config.fromEnv env).eventEndpoint = b ++ "/events" ++ slashes m ∧
      (Config.fromEnv env).healthCheckEndpoint = b ++ "/version"
  /-- An endpoint that is set besides the base URL is used, and makes no other difference. -/
  override : ∀ (env : Env) (endpoint : String), env "SWARMBOT_URL" = some (b ++ slashes n) →
    endpoint ≠ "" →
    Config.fromEnv (Function.update env "EVENT_ENDPOINT" (some endpoint)) =
        { Config.fromEnv env with eventEndpoint := endpoint } ∧
      Config.fromEnv (Function.update env "HEALTH_CHECK_ENDPOINT" (some endpoint)) =
        { Config.fromEnv env with healthCheckEndpoint := endpoint }

section PointsAt

variable {b : String} {n m : ℕ} {env : Env}

theorem trimTrailingSlash_slashes (hb : IsBase b) (n : ℕ) :
    trimTrailingSlash (b ++ slashes n) = b :=
  trimEndMatches_append_replicate n hb.2

theorem append_ne_empty {s t : String} (h : s ≠ "") : s ++ t ≠ "" :=
  fun happend ↦ h (String.append_eq_empty_iff.mp happend).1

theorem swarmbotBaseUrl_of_url (hb : IsBase b) (h : env "SWARMBOT_URL" = some (b ++ slashes n)) :
    swarmbotBaseUrl env = b := by
  have hne : b ++ slashes n ≠ "" := append_ne_empty hb.1
  rw [swarmbotBaseUrl, getString_of_set h hne]
  exact (if_pos hne).trans (trimTrailingSlash_slashes hb n)

theorem swarmbotBaseUrl_of_unset {event : String} (h : Unset env "SWARMBOT_URL")
    (hevent : env "EVENT_ENDPOINT" = some event) (hne : event ≠ "") :
    swarmbotBaseUrl env = trimTrailingSlash ((stripSuffix event "/events").getD event) := by
  rw [swarmbotBaseUrl, getString_of_unset h, getString_of_set hevent hne]
  exact if_neg (not_not_intro rfl)

/-- The suffix is stripped if nothing stands behind it, and else only the slashes are trimmed. -/
theorem swarmbotBaseUrl_of_event (hb : IsBase b) (h : Unset env "SWARMBOT_URL")
    (hevent : env "EVENT_ENDPOINT" = some (b ++ "/events" ++ slashes m)) :
    swarmbotBaseUrl env = if m = 0 then b else b ++ "/events" := by
  rw [swarmbotBaseUrl_of_unset h hevent (append_ne_empty (append_ne_empty hb.1))]
  cases m with
  | zero =>
      have hstrip : stripSuffix (b ++ "/events" ++ slashes 0) "/events" = some b :=
        stripSuffix_eq_some_iff.mpr String.append_empty
      have htrim : trimTrailingSlash (b ++ slashes 0) = b := trimTrailingSlash_slashes hb 0
      rw [show slashes 0 = "" from rfl, String.append_empty] at htrim
      rw [hstrip, Option.getD_some, if_pos rfl, htrim]
  | succ m =>
      -- behind the slashes there is no suffix to strip, as it ends with an `s`
      have hstrip : stripSuffix (b ++ "/events" ++ slashes (m + 1)) "/events" = none := by
        refine Option.eq_none_iff_forall_not_mem.mpr fun rest hrest ↦ ?_
        have hslash : (b ++ "/events" ++ slashes (m + 1)).toList.getLast? = some '/' := by
          rw [String.toList_append, slashes, String.toList_ofList, List.replicate_succ',
            ← List.append_assoc, List.getLast?_concat]
        rw [stripSuffix_eq_some_iff.mp hrest] at hslash
        simp at hslash
      rw [hstrip, Option.getD_none, if_neg m.succ_ne_zero]
      refine trimEndMatches_append_replicate (m + 1) ?_
      simp

theorem pointsAt_url (hb : IsBase b) (h : env "SWARMBOT_URL" = some (b ++ slashes n))
    (hevent : Unset env "EVENT_ENDPOINT") (hhealth : Unset env "HEALTH_CHECK_ENDPOINT") :
    (Config.fromEnv env).eventEndpoint = b ++ "/events" ∧
      (Config.fromEnv env).healthCheckEndpoint = b ++ "/version" := by
  constructor
  · exact (getString_of_unset hevent).trans (by rw [swarmbotBaseUrl_of_url hb h]; rfl)
  · exact (getString_of_unset hhealth).trans (by rw [swarmbotBaseUrl_of_url hb h]; rfl)

/-- With slashes behind it, the URL of the endpoint is taken for the base. -/
theorem pointsAt_event (hb : IsBase b) (h : Unset env "SWARMBOT_URL")
    (hevent : env "EVENT_ENDPOINT" = some (b ++ "/events" ++ slashes m))
    (hhealth : Unset env "HEALTH_CHECK_ENDPOINT") :
    (Config.fromEnv env).eventEndpoint = b ++ "/events" ++ slashes m ∧
      (Config.fromEnv env).healthCheckEndpoint =
        (if m = 0 then b else b ++ "/events") ++ "/version" := by
  constructor
  · exact getString_of_set hevent (append_ne_empty (append_ne_empty hb.1))
  · exact (getString_of_unset hhealth).trans (by rw [swarmbotBaseUrl_of_event hb h hevent]; rfl)

theorem pointsAt_override (hb : IsBase b) {endpoint : String}
    (h : env "SWARMBOT_URL" = some (b ++ slashes n)) (hne : endpoint ≠ "") :
    Config.fromEnv (Function.update env "EVENT_ENDPOINT" (some endpoint)) =
        { Config.fromEnv env with eventEndpoint := endpoint } ∧
      Config.fromEnv (Function.update env "HEALTH_CHECK_ENDPOINT" (some endpoint)) =
        { Config.fromEnv env with healthCheckEndpoint := endpoint } := by
  have hbase : ∀ key, key ≠ "SWARMBOT_URL" →
      swarmbotBaseUrl (Function.update env key (some endpoint)) = swarmbotBaseUrl env := by
    intro key hkey
    have hupdate : Function.update env key (some endpoint) "SWARMBOT_URL" =
        some (b ++ slashes n) := by rw [Function.update_of_ne hkey.symm, h]
    rw [swarmbotBaseUrl_of_url hb hupdate, swarmbotBaseUrl_of_url hb h]
  constructor
  · simp [Config.fromEnv, hbase, getString_update_self hne, getString_update_of_ne, parseBoolEnv,
      parseU64Env, parseUsizeEnv, parseEnv_update_of_ne]
  · simp [Config.fromEnv, hbase, getString_update_self hne, getString_update_of_ne, parseBoolEnv,
      parseU64Env, parseUsizeEnv, parseEnv_update_of_ne]

/-- **When the two ways agree**: if nothing stands behind the URL of the events endpoint. -/
theorem pointsAt_iff (hb : IsBase b) : PointsAt b n m ↔ m = 0 := by
  constructor
  · intro h
    by_contra hm
    let env : Env := fun key ↦
      if key = "EVENT_ENDPOINT" then some (b ++ "/events" ++ slashes m) else none
    have hevent : env "EVENT_ENDPOINT" = some (b ++ "/events" ++ slashes m) := rfl
    obtain ⟨-, hhealth⟩ := h.event env (Or.inl rfl) hevent (Or.inl rfl)
    rw [(pointsAt_event hb (Or.inl rfl) hevent (Or.inl rfl)).2, if_neg hm,
      String.append_assoc] at hhealth
    exact absurd ((String.append_right_inj b).mp hhealth) (by decide)
  · rintro rfl
    exact ⟨fun _ ↦ pointsAt_url hb, fun _ ↦ pointsAt_event hb, fun _ _ ↦ pointsAt_override hb⟩

end PointsAt

theorem pointsAt_app : PointsAt "http://app:8080" 2 0 :=
  (pointsAt_iff ⟨by decide, by decide⟩).mpr rfl

/-- A slash behind the URL of the events endpoint, and the agent asks for the version of that. -/
theorem health_of_events_slash :
    let env : Env := fun key ↦
      if key = "EVENT_ENDPOINT" then some "http://app:8080/events/" else none
    (Config.fromEnv env).healthCheckEndpoint = "http://app:8080/events/version" ∧
      ¬PointsAt "http://app:8080" 0 1 := by
  intro env
  have hbase : IsBase "http://app:8080" := ⟨by decide, by decide⟩
  have hevent : env "EVENT_ENDPOINT" = some ("http://app:8080" ++ "/events" ++ slashes 1) := by
    decide
  have hhealth : (Config.fromEnv env).healthCheckEndpoint = "http://app:8080/events/version" := by
    rw [(pointsAt_event hbase (Or.inl rfl) hevent (Or.inl rfl)).2]
    decide
  refine ⟨hhealth, fun h ↦ ?_⟩
  rw [(h.event env (Or.inl rfl) hevent (Or.inl rfl)).2] at hhealth
  exact absurd hhealth (by decide)

end Swarmagent
