import Swarmagent.Config

/-!
# Every configuration can be told

The agent never fails because of its configuration: whatever cannot be read stands for a default.
So it should be clear what configurations there are, and that each can be asked for.  An environment
gives a configuration that is valid (`valid_fromEnv`), and a valid configuration is what the agent
reads from the environment which says so (`fromEnv_toEnv`).

## What is left open

Which texts a system lets one set.  None has a NUL in it, so a configuration with such a text is
told by an environment that there is not.
-/

namespace Swarmagent

open Rust Kubernetes

/-! ## Writing variables -/

def AgentMode.text : AgentMode → String
  | .auto => "auto"
  | .docker => "docker"
  | .kubernetes => "kubernetes"

def Kubernetes.KubeletMode.text : KubeletMode → String
  | .direct => "direct"
  | .proxy => "proxy"

def boolText : Bool → String
  | true => "true"
  | false => "false"

theorem parseAgentMode_text (m : AgentMode) : parseAgentMode m.text = m := by
  cases m <;> decide

theorem parseKubeletMode_text (m : KubeletMode) : parseKubeletMode m.text = m := by
  cases m <;> decide

theorem parseBool_boolText (b : Bool) : parseBool (boolText b) = some b := by
  cases b <;> rfl

/-- The digits of a number. -/
def digitsOf (n : ℕ) : Digits where
  chars := Nat.toDigits 10 n
  isDigit := fun _ hc ↦ Nat.isDigit_of_mem_toDigits (by decide) (by decide) hc

theorem value_digitsOf (n : ℕ) : (digitsOf n).value = n :=
  Nat.ofDigitChars_ten_toDigits

/-- Digits are read as the number they are for. -/
theorem parseU64_of_digits {v : String} {d : Digits} (hv : v.toList = d.chars)
    (hne : d.chars ≠ []) (hlt : d.value < 2 ^ 64) : parseU64 v = some (.ofNat d.value) := by
  have hok : ¬(d.chars = [] ∨ ([] : List Char) ≠ [] ∨ 2 ^ 64 ≤ d.value) := by
    simp only [hne, ne_eq, not_true_eq_false, false_or, not_le]
    exact hlt
  unfold parseU64
  rw [hv]
  split
  next digits rest hread =>
    have hd : (digits, rest) = (d, []) := by
      rw [← readDigits_chars d, ← hread]
      split
      · next l hchars =>
          have hdigit := d.isDigit '+' (by rw [hchars]; exact List.mem_cons_self)
          exact absurd hdigit (by decide)
      · rfl
    obtain ⟨rfl, rfl⟩ := Prod.mk.inj hd
    exact if_neg hok

/-- A number is read back from its digits. -/
theorem parseU64_toString (n : UInt64) : parseU64 (toString n.toNat) = some n := by
  have hlist : (toString n.toNat).toList = (digitsOf n.toNat).chars := Nat.toList_repr
  have hvalue := value_digitsOf n.toNat
  rw [parseU64_of_digits hlist Nat.toDigits_ne_nil (by rw [hvalue]; exact n.toNat_lt), hvalue,
    UInt64.ofNat_toNat]

/-- What is trimmed has nothing to trim. -/
theorem trim_trim (s : String) : trim (trim s) = trim s := by
  let l := s.toList.dropWhile isWhitespace
  have hdrop : (l.rdropWhile isWhitespace).dropWhile isWhitespace =
      l.rdropWhile isWhitespace := by
    obtain ⟨rest, hrest⟩ := l.rdropWhile_prefix isWhitespace
    cases hl : l.rdropWhile isWhitespace with
    | nil => rfl
    | cons c l' =>
        have hhead := List.head?_dropWhile_not isWhitespace s.toList
        rw [show s.toList.dropWhile isWhitespace = l from rfl, ← hrest, hl] at hhead
        exact List.dropWhile_cons_of_neg (by simp [show isWhitespace c = false from hhead])
  show trim (String.ofList (l.rdropWhile isWhitespace)) = String.ofList (l.rdropWhile isWhitespace)
  rw [trim, String.toList_ofList, hdrop, List.rdropWhile_idempotent]

theorem nonEmpty_self {text : String} (hne : text ≠ "") (htrim : trim text = text) :
    nonEmpty (some text) = some text := by
  rw [nonEmpty, Option.map_some, htrim]
  exact Option.filter_eq_some_iff.mpr ⟨rfl, decide_eq_true hne⟩

/-! ## Configurations -/

/-- A text that is given, without white space around it. -/
def Trimmed (text : Option String) : Prop := ∀ s, text = some s → s ≠ "" ∧ trim s = s

/-- A configuration that the agent may have. -/
structure Config.Valid (c : Config) : Prop where
  statsFrequency : 1 ≤ c.statsFrequency
  statsMaxConcurrency : 1 ≤ c.statsMaxConcurrency ∧ c.statsMaxConcurrency ≤ 512
  eventEndpoint : c.eventEndpoint ≠ ""
  healthCheckEndpoint : c.healthCheckEndpoint ≠ ""
  nodeName : Trimmed c.nodeName
  nodeIp : Trimmed c.nodeIp
  sharedSecret : Trimmed c.sharedSecret

/-- The environment that tells a configuration. -/
def Config.toEnv (c : Config) : Env
  | "AGENT_MODE" => some c.agentMode.text
  | "STATS_FREQUENCY" => some (toString c.statsFrequency.toNat)
  | "EVENT_ENDPOINT" => some c.eventEndpoint
  | "HEALTH_CHECK_ENDPOINT" => some c.healthCheckEndpoint
  | "DEBUG_EVENT" => some (boolText c.debugEvent)
  | "DEBUG_STATS" => some (boolText c.debugStats)
  | "STATS_MAX_CONCURRENCY" => some (toString c.statsMaxConcurrency.toNat)
  | "NODE_NAME" => c.nodeName
  | "NODE_IP" => c.nodeIp
  | "AGENT_KUBELET_INSECURE_TLS" => some (boolText c.kubeletInsecureTls)
  | "AGENT_KUBELET_MODE" => some c.kubeletMode.text
  | "SWARMAGENT_SHARED_SECRET" => c.sharedSecret
  | _ => none

theorem trimmed_nonEmpty (v : Option String) : Trimmed (nonEmpty v) := by
  intro s hs
  obtain ⟨hmap, hne⟩ := Option.filter_eq_some_iff.mp hs
  obtain ⟨raw, -, rfl⟩ := Option.map_eq_some_iff.mp hmap
  exact ⟨of_decide_eq_true hne, trim_trim raw⟩

theorem nonEmpty_of_trimmed {text : Option String} (h : Trimmed text) : nonEmpty text = text := by
  cases text with
  | none => rfl
  | some s => exact nonEmpty_self (h s rfl).1 (h s rfl).2

theorem getString_ne_empty {env : Env} {key default : String} (h : default ≠ "") :
    getString env key default ≠ "" := by
  unfold getString
  split
  · split
    · assumption
    · exact h
  · exact h

theorem parseEnv_of_set {α : Type} {env : Env} {parse : String → Option α} {key v : String}
    {default a : α} (h : env key = some v) (hv : parse v = some a) :
    parseEnv env parse key default = a := by
  rw [parseEnv, h, Option.bind_some, hv, Option.getD_some]

/-- **What an environment gives** is valid. -/
theorem Config.valid_fromEnv (env : Env) : (fromEnv env).Valid := by
  obtain ⟨hfrequency, hone, hmax, -⟩ := fromEnv_bounds env
  have hend : ∀ base path : String, path ≠ "" → endpointFromBase base path ≠ "" :=
    fun base path hpath h ↦ hpath (String.append_eq_empty_iff.mp h).2
  exact {
    statsFrequency := hfrequency
    statsMaxConcurrency := ⟨hone, hmax⟩
    eventEndpoint := getString_ne_empty (hend _ _ (by decide))
    healthCheckEndpoint := getString_ne_empty (hend _ _ (by decide))
    nodeName := trimmed_nonEmpty _
    nodeIp := trimmed_nonEmpty _
    sharedSecret := trimmed_nonEmpty _ }

theorem Config.fromEnv_agentMode (env : Env) :
    (fromEnv env).agentMode = parseAgentMode (getString env "AGENT_MODE" "auto") := by
  simp only [fromEnv]

/-- **What is told is read**, if it is valid. -/
theorem Config.fromEnv_toEnv {c : Config} (h : c.Valid) : fromEnv c.toEnv = c := by
  have hbool : ∀ {key : String} {default b : Bool}, c.toEnv key = some (boolText b) →
      parseBoolEnv c.toEnv key default = b := fun hkey ↦ parseEnv_of_set hkey (parseBool_boolText _)
  have hfrequency : parseU64Env c.toEnv "STATS_FREQUENCY" 30 = c.statsFrequency :=
    parseEnv_of_set rfl (parseU64_toString _)
  have hconcurrency : parseUsizeEnv c.toEnv "STATS_MAX_CONCURRENCY" 32 = c.statsMaxConcurrency :=
    parseEnv_of_set rfl (parseU64_toString _)
  have hmode : getString c.toEnv "AGENT_MODE" "auto" = c.agentMode.text :=
    getString_of_set rfl (by cases c.agentMode <;> decide)
  have hkubelet : getString c.toEnv "AGENT_KUBELET_MODE" "direct" = c.kubeletMode.text :=
    getString_of_set rfl (by cases c.kubeletMode <;> decide)
  apply Config.ext
  · rw [fromEnv_agentMode, hmode, parseAgentMode_text]
  · show max (parseU64Env c.toEnv "STATS_FREQUENCY" 30) 1 = c.statsFrequency
    rw [hfrequency]
    exact max_of_le h.statsFrequency
  · exact getString_of_set rfl h.eventEndpoint
  · exact getString_of_set rfl h.healthCheckEndpoint
  · exact hbool rfl
  · exact hbool rfl
  · show min (max (parseUsizeEnv c.toEnv "STATS_MAX_CONCURRENCY" 32) 1) 512 =
      c.statsMaxConcurrency
    rw [hconcurrency, max_of_le h.statsMaxConcurrency.1]
    exact min_of_le h.statsMaxConcurrency.2
  · exact nonEmpty_of_trimmed h.nodeName
  · exact nonEmpty_of_trimmed h.nodeIp
  · exact hbool rfl
  · rw [fromEnv_kubeletMode, hkubelet, parseKubeletMode_text]
  · exact nonEmpty_of_trimmed h.sharedSecret

/-- **The configurations that there are.** -/
theorem Config.exists_env_iff {c : Config} : (∃ env, Config.fromEnv env = c) ↔ c.Valid := by
  constructor
  · rintro ⟨env, rfl⟩
    exact valid_fromEnv env
  · exact fun h ↦ ⟨c.toEnv, fromEnv_toEnv h⟩

end Swarmagent
