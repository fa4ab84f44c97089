import PhoenixChannel.Runtime.Codec
import Mathlib.Data.List.DropRight

/-! Endpoints.

An endpoint is a base URL and a loader that is asked for parameters and a token before every attempt.
What an attempt connects to is again the URL of an endpoint, which is resolved to itself. The URL parser
and the base64 alphabet are parameters; a query is the list of its decoded pairs. -/
namespace PhoenixChannel.Client
open PhoenixChannel.Runtime

/-- A parsed URL, as far as an endpoint tells its parts apart. -/
structure EndpointUrl where
  scheme : String
  authority : String
  path : String
  query : List (String × String)
  fragment : Option String
  deriving DecidableEq

/-- What is outside: `Url::parse`, how a URL is written, and the base64 alphabet without padding. -/
structure Formats where
  parse : String → Except String EndpointUrl
  write : EndpointUrl → String
  encode : List UInt8 → String
  decode : String → Option (List UInt8)

def authTokenPrefix : String := "base64url.bearer.phx."

def v2ProtocolVersion : String := "2.0.0"

structure ConnectionConfig where
  params : List (String × String)
  authToken : Option String

inductive EndpointError where
  | invalidUrl (message : String)
  | unsupportedScheme (scheme : String)
  | config (message : String)
  deriving DecidableEq

def EndpointError.text : EndpointError → String
  | .invalidUrl message => "invalid endpoint URL: " ++ message
  | .unsupportedScheme scheme => "unsupported endpoint URL scheme: " ++ scheme
  | .config message => "connection configuration failed: " ++ message

/-- An endpoint, whose loader is asked with the number of the attempt. -/
structure Endpoint where
  url : EndpointUrl
  configLoader : Nat → Except String ConnectionConfig

/-- `static_connection_config`. -/
def staticConnectionConfig (config : ConnectionConfig) (_ : Nat) : Except String ConnectionConfig := .ok config

structure ResolvedEndpoint where
  url : String
  protocols : List String

/-- `trim_end_matches('/')`. -/
def trimEnd (path : List Char) : List Char := path.rdropWhile (· = '/')

def websocketSuffix : List Char := "/websocket".toList

/-- The path of an endpoint, for the path it is given. -/
def websocketPath (path : String) : String :=
  if websocketSuffix.isSuffixOf (trimEnd path.toList) then path
  else String.ofList (trimEnd path.toList ++ websocketSuffix)

namespace Endpoint

def new (formats : Formats) (url : String) : Except EndpointError Endpoint :=
  match formats.parse url with
  | .error error => .error (.invalidUrl error)
  | .ok url =>
    if url.scheme = "ws" ∨ url.scheme = "wss" then
      .ok ⟨{ url with path := websocketPath url.path }, staticConnectionConfig ⟨[], none⟩⟩
    else .error (.unsupportedScheme url.scheme)

def connectionConfigLoader (endpoint : Endpoint) (configLoader : Nat → Except String ConnectionConfig) : Endpoint :=
  { endpoint with configLoader }

/-- The pairs of a query that are not about the protocol version. -/
def unversioned (query : List (String × String)) : List (String × String) := query.filter fun pair => pair.1 ≠ "vsn"

/-- The URL of an attempt. -/
def target (endpoint : Endpoint) (config : ConnectionConfig) : EndpointUrl :=
  { endpoint.url with
    query := unversioned endpoint.url.query ++ config.params ++ [("vsn", v2ProtocolVersion)] }

def protocols (formats : Formats) : Option String → List String
  | none => []
  | some token => ["phoenix", authTokenPrefix ++ formats.encode (Codec.bytes token)]

def resolve (formats : Formats) (endpoint : Endpoint) (attempt : Nat) : Except EndpointError ResolvedEndpoint :=
  match endpoint.configLoader attempt with
  | .error error => .error (.config error)
  | .ok config => .ok ⟨formats.write (endpoint.target config), protocols formats config.authToken⟩

end Endpoint

/-! ### Paths

Trailing slashes do not matter, and the suffix is appended once. -/

section
variable {path : List Char} {suffix : List Char} {c : Char}

theorem trimEnd_concat (h : c ≠ '/') : trimEnd (path ++ [c]) = path ++ [c] :=
  List.rdropWhile_concat_neg _ _ _ (by rw [decide_eq_true_iff]; exact h)

theorem trimEnd_websocket : trimEnd (path ++ websocketSuffix) = path ++ websocketSuffix := by
  have hsplit : path ++ websocketSuffix = (path ++ "/websocke".toList) ++ ['t'] := by
    rw [List.append_assoc]
    rfl
  rw [hsplit]
  exact trimEnd_concat (by decide)

/-- The path of an endpoint ends as it must, apart from slashes, and is the path of the same endpoint. -/
theorem websocketPath_spec (path : String) :
    websocketSuffix <:+ trimEnd (websocketPath path).toList ∧
      websocketPath (websocketPath path) = websocketPath path := by
  have hended : websocketSuffix <:+ trimEnd (websocketPath path).toList := by
    unfold websocketPath
    split
    · rename_i h
      exact List.isSuffixOf_iff_suffix.mp h
    · rw [String.toList_ofList, trimEnd_websocket]
      exact List.suffix_append ..
  refine ⟨hended, ?_⟩
  rw [websocketPath, if_pos (List.isSuffixOf_iff_suffix.mpr hended)]

end

/-! ### Attempts

The target of an attempt differs from the endpoint's URL in its path and its query only, and the
version parameter is written last. -/

namespace Endpoint

section
variable {formats : Formats} {text : String} {endpoint : Endpoint} {config : ConnectionConfig} {attempt : Nat}
  {resolved : ResolvedEndpoint}

/-- An endpoint's URL is one of a WebSocket, with the path completed. -/
theorem new_eq_ok (h : new formats text = .ok endpoint) :
    ∃ url, formats.parse text = .ok url ∧ (url.scheme = "ws" ∨ url.scheme = "wss") ∧
      endpoint = ⟨{ url with path := websocketPath url.path }, staticConnectionConfig ⟨[], none⟩⟩ := by
  unfold new at h
  cases hparse : formats.parse text with
  | error error =>
    rw [hparse] at h
    cases h
  | ok url =>
    rw [hparse] at h
    dsimp only at h
    split at h
    · rename_i hscheme
      cases h
      exact ⟨url, rfl, hscheme, rfl⟩
    · cases h

theorem unversioned_of_ne {query : List (String × String)} (h : ∀ pair ∈ query, pair.1 ≠ "vsn") :
    unversioned query = query :=
  List.filter_eq_self.mpr fun pair hm => decide_eq_true (h pair hm)

/-- The version that a target adds is the one that `unversioned` takes away. -/
theorem unversioned_target (h : ∀ pair ∈ config.params, pair.1 ≠ "vsn") :
    unversioned (endpoint.target config).query = unversioned endpoint.url.query ++ config.params := by
  have hversion : unversioned [("vsn", v2ProtocolVersion)] = [] := rfl
  have hagain : unversioned (unversioned endpoint.url.query) = unversioned endpoint.url.query := by
    refine unversioned_of_ne fun pair hm => ?_
    exact of_decide_eq_true (List.mem_filter.mp hm).2
  show unversioned (unversioned endpoint.url.query ++ config.params ++ [("vsn", v2ProtocolVersion)]) = _
  rw [unversioned, List.filter_append, List.filter_append]
  show unversioned (unversioned _) ++ unversioned config.params ++ unversioned _ = _
  rw [hagain, unversioned_of_ne h, hversion, List.append_nil]

/-- **What is resolved is resolved to itself.** Where no parameter is called `vsn`, the URL of an attempt
is the URL of an endpoint, whose attempts go to the same URL with their own parameters added before the
version, and to exactly that URL where there are none. -/
theorem resolved_again (hn : new formats text = .ok endpoint) {loader : Nat → Except String ConnectionConfig}
    (hl : loader attempt = .ok config) (hv : ∀ pair ∈ config.params, pair.1 ≠ "vsn")
    (hparse : formats.parse (formats.write (endpoint.target config)) = .ok (endpoint.target config)) :
    ∃ resolved again, (endpoint.connectionConfigLoader loader).resolve formats attempt = .ok resolved ∧
      new formats resolved.url = .ok again ∧
      (∀ attempt, again.resolve formats attempt = .ok ⟨resolved.url, []⟩) ∧
      ∀ more : ConnectionConfig, again.target more =
        { endpoint.target config with
          query :=
            unversioned endpoint.url.query ++ config.params ++ more.params ++ [("vsn", v2ProtocolVersion)] } := by
  obtain ⟨url, -, hscheme, rfl⟩ := new_eq_ok hn
  let endpoint : Endpoint := ⟨{ url with path := websocketPath url.path }, staticConnectionConfig ⟨[], none⟩⟩
  let again : Endpoint := ⟨endpoint.target config, staticConnectionConfig ⟨[], none⟩⟩
  have hagain : new formats (formats.write (endpoint.target config)) = .ok again := by
    have hpath : websocketPath (endpoint.target config).path = (endpoint.target config).path :=
      (websocketPath_spec url.path).2
    rw [new, hparse]
    dsimp only
    rw [hpath]
    exact if_pos hscheme
  have htarget : ∀ more : ConnectionConfig, again.target more =
      { endpoint.target config with
        query := unversioned url.query ++ config.params ++ more.params ++ [("vsn", v2ProtocolVersion)] } := by
    intro more
    rw [target, unversioned_target hv]
  refine ⟨⟨formats.write (endpoint.target config), protocols formats config.authToken⟩, again, ?_, hagain,
    fun attempt => ?_, htarget⟩
  · rw [resolve, connectionConfigLoader]
    dsimp only
    rw [hl]
    rfl
  · have hsame : again.target ⟨[], none⟩ = endpoint.target config := by
      rw [htarget, List.append_nil]
      rfl
    show Except.ok (ResolvedEndpoint.mk (formats.write (again.target ⟨[], none⟩)) []) = _
    rw [hsame]

/-- What is outside, for the given URLs, which need no escapes, and for one token. -/
def plainFormats (known : List EndpointUrl) : Formats :=
  let write (url : EndpointUrl) :=
    url.scheme ++ "://" ++ url.authority ++ url.path ++ "?" ++
      "&".intercalate (url.query.map fun pair => pair.1 ++ "=" ++ pair.2)
  { parse := fun text =>
      match known.find? fun url => write url = text with
      | some url => .ok url
      | none => .error "relative URL without a base"
    write
    encode := fun bytes => if bytes = Codec.bytes "1234" then "MTIzNA" else ""
    decode := fun text => if text = "MTIzNA" then some (Codec.bytes "1234") else none }

/-- A URL with one query pair, resolved with a parameter. -/
theorem resolved_again_example :
    let url : EndpointUrl := ⟨"wss", "example.test", "/socket", [("existing", "yes")], none⟩
    let target : EndpointUrl :=
      ⟨"wss", "example.test", "/socket/websocket", [("existing", "yes"), ("user_id", "7"), ("vsn", "2.0.0")], none⟩
    ∃ again : Endpoint, new (plainFormats [url, target])
        "wss://example.test/socket/websocket?existing=yes&user_id=7&vsn=2.0.0" = .ok again ∧
      ∀ attempt, again.resolve (plainFormats [url, target]) attempt =
        .ok ⟨"wss://example.test/socket/websocket?existing=yes&user_id=7&vsn=2.0.0", []⟩ := by
  intro url target
  let endpoint : Endpoint := ⟨{ url with path := "/socket/websocket" }, staticConnectionConfig ⟨[], none⟩⟩
  have hn : new (plainFormats [url, target]) "wss://example.test/socket?existing=yes" = .ok endpoint := by
    have hparse : (plainFormats [url, target]).parse "wss://example.test/socket?existing=yes" = .ok url := by
      decide +kernel
    have hpath : websocketPath url.path = "/socket/websocket" := by decide +kernel
    rw [new, hparse]
    dsimp only
    rw [hpath]
    rfl
  obtain ⟨resolved, again, hresolve, hagain, hsame, -⟩ :=
    @resolved_again (plainFormats [url, target]) _ endpoint ⟨[("user_id", "7")], none⟩ 0 hn
      (staticConnectionConfig ⟨[("user_id", "7")], none⟩) rfl (by decide) (by decide +kernel)
  cases hresolve
  exact ⟨again, hagain, hsame⟩

end

end Endpoint
end PhoenixChannel.Client
