import Swarmagent.Kubernetes.Client
import Swarmagent.Uri.Grammar

/-!
# Addresses in URLs

The agent puts an address and a port behind `https://`, with a colon between the two.  An IPv4
address is then read back as what it is.  An IPv6 address has colons itself and would have to stand
in brackets, which the agent does not put, so that the text is no URL at all
(`readsBack_url_iff`).

The same happens to the address of the API server and to that of the kubelet, so with IPv6 no
request to the API server succeeds, and the kubelet is never asked directly
(`addresses_read_back_iff`).
-/

namespace Swarmagent.Kubernetes

open Swarmagent.Json Swarmagent.Rust Uri

def IsIPv4 (a : String) : Prop := a.toList ∈ Grammar.ipv4address.matches'

def IsIPv6 (a : String) : Prop := a.toList ∈ Grammar.ipv6address.matches'

def IsPort (p : String) : Prop := p.toList ∈ Grammar.port.matches'

instance : DecidablePred IsIPv4 := fun a ↦
  inferInstanceAs (Decidable (a.toList ∈ Grammar.ipv4address.matches'))

instance : DecidablePred IsIPv6 := fun a ↦
  inferInstanceAs (Decidable (a.toList ∈ Grammar.ipv6address.matches'))

instance : DecidablePred IsPort := fun p ↦
  inferInstanceAs (Decidable (p.toList ∈ Grammar.port.matches'))

/-- There is one way to read the URL, and it has the host, the port and the path. -/
def ReadsBack (url host port path : String) : Prop :=
  ∃ u : Uri, (∀ u' : Uri, u'.text = url.toList ↔ u' = u) ∧
    u.authority.host.address = host.toList ∧
    u.authority.port.map Subtype.val = some port.toList ∧ u.path.1 = path.toList

section ReadsBack

variable {a p path : String}

/-- The scheme of all URLs of the agent. -/
def https : TextOf Grammar.scheme := ⟨"https".toList, by decide⟩

/-- The path of the summary. -/
def summaryPath : TextOf Grammar.pathAbempty where
  val := "/stats/summary".toList
  property := by
    have hsegment : ∀ s : String,
        (s.toList.all fun c ↦ decide ([c] ∈ Grammar.pchar.matches')) = true →
        '/' :: s.toList ∈ (RegularExpression.char '/' * Grammar.segment).matches' :=
      fun s hs ↦ slash_mem fun c hc ↦ of_decide_eq_true (List.all_eq_true.mp hs c hc)
    refine Language.mem_kstar.mpr ⟨['/' :: "stats".toList, '/' :: "summary".toList], rfl, ?_⟩
    refine List.forall_mem_cons.mpr ⟨hsegment "stats" (by decide), ?_⟩
    exact List.forall_mem_singleton.mpr (hsegment "summary" (by decide))

theorem toList_url (a p path : String) :
    ("https://" ++ a ++ ":" ++ p ++ path).toList =
      https.1 ++ ':' :: '/' :: '/' :: (a.toList ++ ':' :: p.toList ++ path.toList) := by
  simp only [String.toList_append, List.append_assoc]
  rfl

theorem readsBack_of_ipv4 (ha : IsIPv4 a) (hp : IsPort p)
    (hpath : path.toList ∈ Grammar.pathAbempty.matches') :
    ReadsBack ("https://" ++ a ++ ":" ++ p ++ path) a p path := by
  let u : Uri :=
    { scheme := https
      authority := { userinfo := none, host := .name ⟨a.toList, Or.inl ha⟩, port := some ⟨_, hp⟩ }
      path := ⟨_, hpath⟩
      query := none
      fragment := none }
  have htext : u.text = ("https://" ++ a ++ ":" ++ p ++ path).toList := by
    rw [toList_url, List.append_assoc]
    show https.1 ++ ':' :: '/' :: '/' :: (a.toList ++ ':' :: p.toList ++ (path.toList ++ [])) = _
    rw [List.append_nil, List.append_assoc]
  refine ⟨u, fun u' ↦ ?_, rfl, rfl, rfl⟩
  rw [← htext]
  exact text_injective.eq_iff

/-- What is between the slashes would have three colons, and no bracket. -/
theorem not_text_of_ipv6 (ha : IsIPv6 a) (hp : IsPort p)
    (hpath : path.toList ∈ Grammar.pathAbempty.matches') (u : Uri) :
    u.text ≠ ("https://" ++ a ++ ":" ++ p ++ path).toList := by
  intro h
  rw [toList_url] at h
  have hfree : Free ['/', '?', '#', '@', '['] (a.toList ++ ':' :: p.toList) :=
    (TextOf.free ⟨_, ha⟩ (by decide)).append
      (free_before (by decide) (by decide) (some ⟨_, hp⟩))
  have hdelims : Free ['/', '?', '#'] (a.toList ++ ':' :: p.toList) := fun x hx hstop ↦
    hfree x hx (List.mem_append_left ['@', '['] hstop)
  obtain ⟨-, hauth, -⟩ := parts_of_text (https.free (by decide)) hdelims
    (stops_path (by decide) ⟨_, hpath⟩) h
  have hcount : u.authority.text.count ':' ≤ 1 := by
    apply u.authority.count_colon_le
    · rw [hauth]
      exact fun hat ↦ hfree '@' hat (by decide)
    · rw [hauth]
      exact fun hopen ↦ hfree '[' hopen (by decide)
  have haddr : 2 ≤ a.toList.count ':' := RegularExpression.least_le_count (a := ':') ha
  rw [hauth, List.count_append, List.count_cons_self] at hcount
  omega

/-- **What a URL is read as**: the address and the port, if the address is one of IPv4. -/
theorem readsBack_url_iff (ha : IsIPv4 a ∨ IsIPv6 a) (hp : IsPort p)
    (hpath : path.toList ∈ Grammar.pathAbempty.matches') :
    ReadsBack ("https://" ++ a ++ ":" ++ p ++ path) a p path ↔ IsIPv4 a := by
  constructor
  · rintro ⟨u, hu, -⟩
    exact ha.resolve_right fun h6 ↦ not_text_of_ipv6 h6 hp hpath u ((hu u).mpr rfl)
  · exact fun h4 ↦ readsBack_of_ipv4 h4 hp hpath

end ReadsBack

/-! ## Where addresses come from -/

/-- The entry of a Node object is for an internal IP, and this is it. -/
def HasInternalIp (entry : Value) (a : String) : Prop :=
  entry.get "type" = some (.string "InternalIP") ∧ entry.get "address" = some (.string a)

/-- The internal IP of a Node object is that of the first entry that is for one. -/
def InternalIp (node : Value) (a : String) : Prop :=
  ∃ pre entry post, arrayAt node ["status", "addresses"] = some (pre ++ entry :: post) ∧
    HasInternalIp entry a ∧ ∀ e ∈ pre, ∀ b, ¬HasInternalIp e b

theorem internalIp_parseNodeMeta {node : Value} {a : String} (h : InternalIp node a) :
    (parseNodeMeta node).internalIp = some a := by
  obtain ⟨pre, entry, post, haddrs, ⟨htype, haddr⟩, hpre⟩ := h
  simp only [parseNodeMeta, haddrs, Option.bind_some]
  refine List.findSome?_eq_some_iff.mpr ⟨pre, entry, post, rfl, ?_, fun e he ↦ ?_⟩
  · rw [htype, haddr]
    rfl
  · split
    · next hetype =>
        refine Option.eq_none_iff_forall_ne_some.mpr fun b hb ↦ ?_
        exact hpre e he b
          ⟨Value.bind_asStr_eq_some_iff.mp hetype, Value.bind_asStr_eq_some_iff.mp hb⟩
    · rfl

/-- An address has no white space, so that it is configured as it is set. -/
theorem nodeIp_fromEnv {env : Env} {a : String} (ha : IsIPv4 a ∨ IsIPv6 a)
    (h : env "NODE_IP" = some a) : (Config.fromEnv env).nodeIp = some a := by
  have hpattern : a.toList ∈ (Grammar.ipv4address + Grammar.ipv6address).matches' := ha
  have hgraphic : ∀ c ∈ a.toList, decide (0x21 ≤ c.toNat ∧ c.toNat ≤ 0x7E) = true :=
    RegularExpression.forall_mem_of_all (by decide) hpattern
  have hspace : ∀ c ∈ a.toList, isWhitespace c = false := fun c hc ↦ by
    have hrange := of_decide_eq_true (hgraphic c hc)
    simp only [isWhitespace, Bool.or_eq_false_iff, Bool.and_eq_false_iff, decide_eq_false_iff_not]
    omega
  have hne : a ≠ "" := by
    rintro rfl
    exact absurd hpattern (by decide)
  rw [Config.fromEnv_nodeIp, h, nonEmpty, Option.map_some, trim_eq_self hspace]
  exact Option.filter_eq_some_iff.mpr ⟨rfl, decide_eq_true hne⟩

/-- A client for the API server at the address is one for URLs at the address. -/
def ApiReadsBack (a p : String) : Prop :=
  ∀ {κ ρ ε : Type} (platform : Platform κ ρ ε) (insecure : Bool) (client : RestClient ρ),
    platform.env "KUBERNETES_SERVICE_HOST" = some a →
    platform.env "KUBERNETES_SERVICE_PORT" = some p →
    RestClient.inCluster platform insecure = .ok client → ReadsBack client.base a p ""

/-- The kubelet at the address, which is configured or that of the Node object, is asked directly at
a URL at the address. -/
def KubeletReadsBack (a : String) : Prop :=
  ∀ {κ ρ ε : Type} (platform : Platform κ ρ ε) (provider : KubernetesProvider String)
    (node : Value),
    KubernetesProvider.fromEnv platform (Config.fromEnv platform.env) = .ok provider →
    provider.kubeletMode = .direct →
    (platform.env "NODE_IP" = some a ∨
      (Config.fromEnv platform.env).nodeIp = none ∧ InternalIp node a) →
    ∃ url, provider.directUrl (parseNodeMeta node).internalIp = some url ∧
      ReadsBack url a "10250" "/stats/summary"

/-- A platform on which everything can be read and built. -/
def workingPlatform (env : Env) : Platform Unit Unit Unit where
  env := env
  read := fun _ ↦ .ok []
  readToString := fun _ ↦ .ok ""
  fromPem := fun _ ↦ .ok ()
  build := fun _ ↦ .ok ()
  send := fun _ _ ↦ .error ()

theorem inCluster_workingPlatform {env : Env} {host : String}
    (hhost : env "KUBERNETES_SERVICE_HOST" = some host) (insecure : Bool) :
    ∃ client, RestClient.inCluster (workingPlatform env) insecure = .ok client := by
  rw [RestClient.inCluster, show (workingPlatform env).env = env from rfl, hhost]
  exact ⟨_, rfl⟩

section Addresses

variable {a p : String}

theorem apiReadsBack_iff (ha : IsIPv4 a ∨ IsIPv6 a) (hp : IsPort p) :
    ApiReadsBack a p ↔ IsIPv4 a := by
  have hbase : ReadsBack ("https://" ++ a ++ ":" ++ p) a p "" ↔ IsIPv4 a := by
    have hiff : ReadsBack ("https://" ++ a ++ ":" ++ p ++ "") a p "" ↔ IsIPv4 a :=
      readsBack_url_iff ha hp (by decide)
    rwa [String.append_empty] at hiff
  constructor
  · intro h
    let env : Env := fun key ↦
      if key = "KUBERNETES_SERVICE_HOST" then some a
      else if key = "KUBERNETES_SERVICE_PORT" then some p else none
    have hhost : env "KUBERNETES_SERVICE_HOST" = some a := by simp [env]
    have hport : env "KUBERNETES_SERVICE_PORT" = some p := by simp [env]
    obtain ⟨client, hclient⟩ := inCluster_workingPlatform hhost false
    have hreads := h (workingPlatform env) false client hhost hport hclient
    rw [base_of_inCluster hhost hclient, show (workingPlatform env).env = env from rfl, hport,
      Option.getD_some] at hreads
    exact hbase.mp hreads
  · intro h4 κ ρ ε platform insecure client hhost hport hclient
    rw [base_of_inCluster hhost hclient, hport, Option.getD_some]
    exact hbase.mpr h4

theorem kubeletReadsBack_iff (ha : IsIPv4 a ∨ IsIPv6 a) : KubeletReadsBack a ↔ IsIPv4 a := by
  have hurl : ReadsBack ("https://" ++ a ++ ":10250/stats/summary") a "10250" "/stats/summary" ↔
      IsIPv4 a := by
    rw [show ":10250/stats/summary" = ":" ++ ("10250" ++ "/stats/summary") from rfl,
      ← String.append_assoc, ← String.append_assoc]
    exact readsBack_url_iff ha (by decide) summaryPath.2
  constructor
  · intro h
    let env : Env := fun key ↦
      if key = "NODE_IP" then some a
      else if key = "NODE_NAME" then some "node-1"
      else if key = "KUBERNETES_SERVICE_HOST" then some "10.96.0.1" else none
    have hip : env "NODE_IP" = some a := by simp [env]
    have hname : (Config.fromEnv env).nodeName = some "node-1" := by
      rw [Config.fromEnv_nodeName, show env "NODE_NAME" = some "node-1" by simp [env]]
      decide
    have hmode : (Config.fromEnv env).kubeletMode = .direct := by
      rw [Config.fromEnv_kubeletMode, getString_of_unset (Or.inl (by simp [env]))]
      decide
    have hhost : env "KUBERNETES_SERVICE_HOST" = some "10.96.0.1" := by simp [env]
    obtain ⟨client, hclient⟩ :=
      inCluster_workingPlatform hhost (Config.fromEnv env).kubeletInsecureTls
    obtain ⟨provider, hprovider⟩ : ∃ provider,
        KubernetesProvider.fromEnv (workingPlatform env) (Config.fromEnv env) = .ok provider := by
      rw [KubernetesProvider.fromEnv, hname, hclient]
      exact ⟨_, rfl⟩
    obtain ⟨hnode, hdirect⟩ := config_of_fromEnv hprovider
    rw [hmode] at hdirect
    obtain ⟨url, hsome, hreads⟩ :=
      h (workingPlatform env) provider .null hprovider hdirect (Or.inl hip)
    rw [KubernetesProvider.directUrl, hdirect, hnode, nodeIp_fromEnv ha hip] at hsome
    obtain rfl := Option.some.inj hsome
    exact hurl.mp hreads
  · intro h4 κ ρ ε platform provider node hprovider hmode hsource
    obtain ⟨hip, -⟩ := config_of_fromEnv hprovider
    have hor : provider.nodeIp.or (parseNodeMeta node).internalIp = some a := by
      rw [hip]
      rcases hsource with hset | ⟨hnone, hinternal⟩
      · rw [nodeIp_fromEnv ha hset, Option.some_or]
      · rw [hnone, Option.none_or, internalIp_parseNodeMeta hinternal]
    refine ⟨_, ?_, hurl.mpr h4⟩
    rw [KubernetesProvider.directUrl, hmode]
    exact congrArg (Option.map _) hor

/-- **When addresses are read back**: if they are of IPv4. -/
theorem addresses_read_back_iff (ha : IsIPv4 a ∨ IsIPv6 a) (hp : IsPort p) :
    ApiReadsBack a p ∧ KubeletReadsBack a ↔ IsIPv4 a := by
  rw [apiReadsBack_iff ha hp, kubeletReadsBack_iff ha, and_self]

end Addresses

theorem addresses_read_back_ipv4 : ApiReadsBack "10.96.0.1" "443" ∧ KubeletReadsBack "10.96.0.1" :=
  (addresses_read_back_iff (Or.inl (by decide)) (by decide)).mpr (by decide)

/-- In a cluster with IPv6, the base of all URLs is no URL, and neither is that of the kubelet. -/
theorem ipv6_not_read_back :
    IsIPv6 "fd00::1" ∧ IsPort "443" ∧
      "https://fd00::1:443".toList ∉ Grammar.uri.matches' ∧
      ¬ApiReadsBack "fd00::1" "443" ∧ ¬KubeletReadsBack "fd00::1" := by
  have h6 : IsIPv6 "fd00::1" := by decide
  have hport : IsPort "443" := by decide
  have h4 : ¬IsIPv4 "fd00::1" := by decide
  refine ⟨h6, hport, fun hread ↦ ?_, ?_, ?_⟩
  · obtain ⟨u, hu⟩ := mem_iff.mp hread
    have hpath : "".toList ∈ Grammar.pathAbempty.matches' := by decide
    exact not_text_of_ipv6 h6 hport hpath u hu
  · rwa [apiReadsBack_iff (Or.inr h6) hport]
  · rwa [kubeletReadsBack_iff (Or.inr h6)]

end Swarmagent.Kubernetes
