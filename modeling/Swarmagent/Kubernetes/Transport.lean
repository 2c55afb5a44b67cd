import Swarmagent.Kubernetes.Requests
import Swarmagent.Machine.Log

/-!
# How requests are sent

Each call of the client reads the token and sends one request.  The kubelet rotates the token, so
that between two calls it may have changed, and it may be unreadable at times.  A request comes
right after the token has been read, and bears what has been read (`run_interp_call`), whatever the
program is that calls the client.  So no request is sent with a token of before.

Both HTTP clients trust the certificate of the cluster.  Only the one for the kubelet may be told to
accept an invalid certificate (`verifies_of_inCluster`).
-/

namespace Swarmagent.Kubernetes

open Swarmagent.Json Swarmagent.Rust Machine

namespace Client

/-- What the client does with the platform. -/
inductive Effect (ρ : Type) where
  | readToString (path : String)
  | send (client : ρ) (request : Request)

/-- A response, of which the body may be read as a stream. -/
structure StreamedResponse (ε : Type) extends Response ε where
  bytesStream : List (Except ε Bytes)

abbrev Effect.Returns {ρ : Type} (ε : Type) : Effect ρ → Type
  | readToString _ => Except ε String
  | send _ _ => Except ε (StreamedResponse ε)

/-- Something that the client has done, and what it got. -/
abbrev Exchange (ρ ε : Type) : Type := Sigma (@Effect.Returns ρ ε)

/-- What a call of the client does. -/
abbrev ClientProgram (ρ ε : Type) : Type → Type := Program (Effect ρ) (Effect.Returns ε)

section Client

variable {ρ ε : Type} (c : RestClient ρ)

/-- `token`. -/
def token : ClientProgram ρ ε (Except String String) := do
  let raw : Except ε String ← Program.perform (.readToString c.tokenPath : Effect ρ)
  return (context "read ServiceAccount token" raw).map trim

/-- A request with the current token.  Errors name it by the label. -/
def send (client : ρ) (url label : String) (timeout : Option ℕ) :
    ClientProgram ρ ε (Except String (StreamedResponse ε)) := do
  match ← token c with
  | .error e => return .error e
  | .ok bearer =>
      let sent : Except ε (StreamedResponse ε) ←
        Program.perform (.send client { url, bearer, timeout } : Effect ρ)
      match sent with
      | .error _ => return .error label
      | .ok resp =>
          if resp.isSuccess then return .ok resp
          else
            let body := match resp.text with
              | .ok text => text
              | .error _ => ""
            return .error (label ++ " returned " ++ resp.statusText ++ ": " ++ body)

/-- The JSON document that a response is. -/
def json (label : String) (resp : Except String (StreamedResponse ε)) : Except String Value :=
  resp.bind fun resp ↦ context ("parse JSON from " ++ label) resp.json

def getJson (path : String) : ClientProgram ρ ε (Except String Value) := do
  return json path (← send c c.http (c.base ++ path) ("GET " ++ path) (some requestTimeout))

def kubeletGetJson (url : String) : ClientProgram ρ ε (Except String Value) := do
  return json url (← send c c.kubelet url ("GET " ++ url) none)

def watch (path : String) : ClientProgram ρ ε (Except String (List (Except ε Bytes))) := do
  let resp ← send c c.http (c.base ++ path) ("WATCH " ++ path) none
  return resp.map StreamedResponse.bytesStream

/-- What the client does for a call. -/
def call : (q : Call) → ClientProgram ρ ε (q.Returns ε)
  | .getJson path => getJson c path
  | .kubeletGetJson url => kubeletGetJson c url
  | .watch path => watch c path

end Client

/-! ## A platform that stands still -/

section Static

variable {κ ρ ε : Type} (platform : Platform κ ρ ε) (bodies : ρ → Request → List (Except ε Bytes))

/-- The answers of a platform that always does the same. -/
def answers : (e : Effect ρ) → e.Returns ε
  | .readToString path => platform.readToString path
  | .send client request => (platform.send client request).map fun resp ↦
      { resp with bytesStream := bodies client request }

variable (c : RestClient ρ)

/-- On such a platform, sending a request and reading its response is what `RestClient.get` does. -/
theorem json_eval_send (client : ρ) (url label : String) (timeout : Option ℕ) :
    json label ((send c client url ("GET " ++ label) timeout).eval (answers platform bodies)) =
      c.get platform client url label timeout := by
  unfold send token RestClient.get RestClient.token
  simp only [bind, pure, Program.eval_bind, Program.eval_perform, Program.eval_done, answers]
  cases platform.readToString c.tokenPath with
  | error e => rfl
  | ok raw =>
      simp only [context, Except.mapError, Except.map, Except.bind, Program.eval_bind,
        Program.eval_perform, answers]
      cases platform.send client { url, bearer := trim raw, timeout } with
      | error e => rfl
      | ok resp =>
          show json label (Program.eval _ (if resp.isSuccess then _ else _)) =
            if resp.isSuccess then _ else _
          split <;> rfl

theorem eval_getJson (path : String) :
    (getJson c path).eval (answers platform bodies) = c.getJson platform path :=
  (Program.eval_bind _).trans (json_eval_send platform bodies c _ _ path _)

theorem eval_kubeletGetJson (url : String) :
    (kubeletGetJson c url).eval (answers platform bodies) = c.kubeletGetJson platform url :=
  (Program.eval_bind _).trans (json_eval_send platform bodies c _ _ url _)

/-- **A tick on such a platform**, request by request, is the tick as it is modelled elsewhere. -/
theorem eval_interp_status (provider : KubernetesProvider String) :
    ((Requests.status provider).interp (call c)).eval (answers platform bodies) =
      (provider.withClient (c.toKubeClient platform)).status := by
  have hcalls : (fun q ↦ (call c q).eval (answers platform bodies)) =
      Requests.answers (c.toKubeClient platform)
        fun path ↦ (watch c path).eval (answers platform bodies) := by
    funext q
    cases q with
    | getJson path => exact eval_getJson platform bodies c path
    | kubeletGetJson url => exact eval_kubeletGetJson platform bodies c url
    | watch path => rfl
  rw [Program.eval_interp, hcalls, Requests.eval_status]

end Static

/-! ## What is sent -/

section Sent

variable {ρ ε : Type} (c : RestClient ρ)

/-- The HTTP client with which a call is made. -/
def httpClient : Call → ρ
  | .getJson _ => c.http
  | .kubeletGetJson _ => c.kubelet
  | .watch _ => c.http

/-- The request of a call. -/
def request (bearer : String) : Call → Request
  | .getJson path => { url := c.base ++ path, bearer, timeout := some requestTimeout }
  | .kubeletGetJson url => { url, bearer, timeout := none }
  | .watch path => { url := c.base ++ path, bearer, timeout := none }

/-- A request comes right after the token has been read, and bears it. -/
def BearsToken (before : List (Exchange ρ ε)) : Exchange ρ ε → Prop
  | ⟨.readToString _, _⟩ => True
  | ⟨.send _ req, _⟩ => ∃ pre text,
      before = pre ++ [⟨.readToString c.tokenPath, .ok text⟩] ∧ req.bearer = trim text

/-- What is sent are requests of the given calls, each with the token that has just been read. -/
structure Sends (calls : Set Call) (t : List (Exchange ρ ε)) : Prop where
  bears : Guarded (BearsToken c) t
  sent : ∀ client req resp, ⟨.send client req, resp⟩ ∈ t →
    ∃ q ∈ calls, client = httpClient c q ∧ req = request c req.bearer q

variable {c} {t : List (Exchange ρ ε)}

theorem Sends.mono {calls calls' : Set Call} (h : Sends c calls t) (hsub : calls ⊆ calls') :
    Sends c calls' t where
  bears := h.bears
  sent := fun client req resp hreq ↦ by
    obtain ⟨q, hq, hclient⟩ := h.sent client req resp hreq
    exact ⟨q, hsub hq, hclient⟩

theorem run_send {client : ρ} {url label : String} {timeout : Option ℕ}
    {r : Except String (StreamedResponse ε)}
    (h : Program.Run (send c client url label timeout) t r) :
    (∃ e, t = [⟨.readToString c.tokenPath, .error e⟩]) ∨
      ∃ text resp, t = [⟨.readToString c.tokenPath, .ok text⟩,
        ⟨.send client { url, bearer := trim text, timeout }, resp⟩] := by
  obtain ⟨raw, t', rfl, hnext⟩ := Program.run_perform_bind_iff.mp h
  cases raw with
  | error e =>
      obtain ⟨rfl, -⟩ := Program.run_done_iff.mp hnext
      exact Or.inl ⟨e, rfl⟩
  | ok text =>
      obtain ⟨resp, t', rfl, hlast⟩ := Program.run_perform_bind_iff.mp hnext
      have hdone : t' = [] := by
        cases resp with
        | error e => exact (Program.run_done_iff.mp hlast).1
        | ok resp =>
            by_cases hsuccess : resp.isSuccess = true
            · dsimp only at hlast
              rw [if_pos hsuccess] at hlast
              exact (Program.run_done_iff.mp hlast).1
            · dsimp only at hlast
              rw [if_neg hsuccess] at hlast
              exact (Program.run_done_iff.mp hlast).1
      exact Or.inr ⟨text, resp, by rw [hdone]⟩

/-- **What a call does**: it reads the token and, if there is one, sends its request. -/
theorem run_call {q : Call} {x : q.Returns ε} (h : Program.Run (call c q) t x) :
    (∃ e, t = [⟨.readToString c.tokenPath, .error e⟩]) ∨
      ∃ text resp, t = [⟨.readToString c.tokenPath, .ok text⟩,
        ⟨.send (httpClient c q) (request c (trim text) q), resp⟩] := by
  -- what follows the request makes no others
  have hsend : ∀ {α β : Type} {p : ClientProgram ρ ε α} {f : α → β} {x : β},
      Program.Run (p.bind fun a ↦ .done (f a)) t x → ∃ a, Program.Run p t a := by
    intro α β p f x h
    obtain ⟨t', a, last, rfl, hp, hlast⟩ := Program.run_bind_iff.mp h
    obtain ⟨rfl, -⟩ := Program.run_done_iff.mp hlast
    exact ⟨a, by rwa [List.append_nil]⟩
  cases q with
  | getJson path =>
      obtain ⟨r, hr⟩ := hsend h
      exact run_send hr
  | kubeletGetJson url =>
      obtain ⟨r, hr⟩ := hsend h
      exact run_send hr
  | watch path =>
      obtain ⟨r, hr⟩ := hsend h
      exact run_send hr

theorem guarded_of_run_call {q : Call} {x : q.Returns ε} (h : Program.Run (call c q) t x) :
    Guarded (BearsToken c) t := by
  have hread : ∀ answer, Guarded (BearsToken c)
      [(⟨.readToString c.tokenPath, answer⟩ : Exchange ρ ε)] :=
    fun answer ↦ guarded_singleton_iff.mpr trivial
  rcases run_call h with ⟨e, rfl⟩ | ⟨text, resp, rfl⟩
  · exact hread (.error e)
  · show Guarded (BearsToken c) ([_] ++ [_])
    refine guarded_append.mpr ⟨hread (.ok text), ?_⟩
    refine guarded_singleton_iff.mpr ⟨[], text, rfl, ?_⟩
    cases q <;> rfl

/-- **What any program sends** through the client are requests of its calls. -/
theorem run_interp_call {α : Type} {p : Requests.ProviderProgram ε α} {a : α}
    (h : Program.Run (p.interp (call c)) t a) :
    ∃ s, Program.Run p s a ∧ Sends c {q | q ∈ s.keys} t := by
  obtain ⟨s, parts, hs, hparts, rfl⟩ := Program.run_interp_iff.mp h
  have hpart : ∀ part ∈ parts, ∃ q ∈ s.keys, ∃ x, Program.Run (call c q) part x :=
    fun part ↦ Program.exists_request_of_part hparts
  refine ⟨s, hs, guarded_flatten ?_ ?_, ?_⟩
  · rintro l before ⟨e, answer⟩ hbefore
    cases e with
    | readToString path => trivial
    | send client req =>
        obtain ⟨pre, text, rfl, hbearer⟩ := hbefore
        exact ⟨l ++ pre, text, (List.append_assoc l pre _).symm, hbearer⟩
  · intro part hmem
    obtain ⟨q, -, x, hrun⟩ := hpart part hmem
    exact guarded_of_run_call hrun
  · intro client req resp hmem
    obtain ⟨part, hmem, hreq⟩ := List.mem_flatten.mp hmem
    obtain ⟨q, hq, x, hrun⟩ := hpart part hmem
    refine ⟨q, hq, ?_⟩
    rcases run_call hrun with ⟨e, rfl⟩ | ⟨text, resp', rfl⟩
    · simp at hreq
    · simp only [List.mem_cons, Sigma.mk.injEq, reduceCtorEq, false_and, false_or,
        List.not_mem_nil, or_false, Effect.send.injEq] at hreq
      obtain ⟨⟨rfl, rfl⟩, -⟩ := hreq
      cases q <;> exact ⟨rfl, rfl⟩

end Sent

/-! ## In a cluster -/

section InCluster

variable {κ ρ ε : Type} {platform : Platform κ ρ ε} {insecure : Bool} {c : RestClient ρ}

variable (platform insecure c) in
/-- Both HTTP clients trust the same certificate.  The one for the API server accepts no invalid
certificate, whatever is configured for the kubelet. -/
def Verifies : Prop :=
  ∃ ca, platform.build { rootCertificate := ca, acceptInvalidCerts := false
                         userAgent := "swarmagent/" ++ packageVersion, timeout := none } =
      .ok c.http ∧
    platform.build { rootCertificate := ca, acceptInvalidCerts := insecure
                     userAgent := "swarmagent/" ++ packageVersion
                     timeout := some requestTimeout } = .ok c.kubelet

theorem verifies_of_inCluster (h : RestClient.inCluster platform insecure = .ok c) :
    Verifies platform insecure c := by
  rw [RestClient.inCluster] at h
  obtain ⟨host, -, h⟩ := bind_eq_ok_iff.mp h
  obtain ⟨caPem, -, h⟩ := bind_eq_ok_iff.mp h
  obtain ⟨ca, -, h⟩ := bind_eq_ok_iff.mp h
  obtain ⟨http, hhttp, h⟩ := bind_eq_ok_iff.mp h
  obtain ⟨kubelet, hkubelet, h⟩ := bind_eq_ok_iff.mp h
  cases h
  exact ⟨ca, eq_ok_of_context hhttp, eq_ok_of_context hkubelet⟩

/-- The client of a provider, and what it is asked for. -/
theorem exists_client_of_fromEnv {cfg : Config} {provider : KubernetesProvider String}
    (h : KubernetesProvider.fromEnv platform cfg = .ok provider) :
    ∃ c, Verifies platform cfg.kubeletInsecureTls c ∧
      provider.withClient (c.toKubeClient platform) = provider ∧
      cfg.nodeName = some provider.nodeName := by
  rw [KubernetesProvider.fromEnv] at h
  obtain ⟨nodeName, hname, h⟩ := bind_eq_ok_iff.mp h
  obtain ⟨c, hc, h⟩ := bind_eq_ok_iff.mp h
  cases h
  refine ⟨c, verifies_of_inCluster hc, rfl, ?_⟩
  cases hcfg : cfg.nodeName with
  | none =>
      rw [hcfg] at hname
      cases hname
  | some name =>
      rw [hcfg] at hname
      exact congrArg some (Except.ok.inj hname)

end InCluster

section Provider

variable {ρ ε : Type} {c : RestClient ρ} {t : List (Exchange ρ ε)}
variable {provider : KubernetesProvider String}

/-- A tick sends the requests of a tick. -/
theorem sends_of_status {r : Except (StatusError String) Status}
    (h : Program.Run ((Requests.status provider).interp (call c)) t r) :
    ∃ nodeIp, Sends c {q | q ∈ Requests.tickCalls provider nodeIp} t := by
  obtain ⟨s, hs, hsends⟩ := run_interp_call h
  obtain ⟨nodeIp, hkeys⟩ := Requests.keys_of_status hs
  exact ⟨nodeIp, hsends.mono fun q hq ↦ hkeys.subset hq⟩

/-- The loop of `run_events` watches the pods of the node. -/
theorem sends_of_runEvents {timestampOf : String → Option Int} {fromSlice : Bytes → Option Value}
    {s : EventLoop} {ambients : List Ambient} {r : EventLoop × List (Attempt String)}
    (h : Program.Run
      ((Requests.runEvents provider timestampOf fromSlice s ambients).interp (call c)) t r) :
    Sends c {.watch provider.watchPath} t := by
  obtain ⟨s, hs, hsends⟩ := run_interp_call h
  obtain ⟨resps, -, rfl, -⟩ := Requests.run_runEvents_iff.mp hs
  refine hsends.mono fun q hq ↦ ?_
  obtain ⟨resp, hmem⟩ := List.mem_keys.mp hq
  obtain ⟨_, -, heq⟩ := List.mem_map.mp hmem
  exact (congrArg Sigma.fst heq).symm

end Provider

end Client

end Swarmagent.Kubernetes
