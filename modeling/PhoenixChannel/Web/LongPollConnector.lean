import PhoenixChannel.Client.Endpoint
import PhoenixChannel.Web.Traffic

/-! What a LongPoll session asks of the server.

The connector takes what an endpoint was resolved to apart again: the path is the one beside the
WebSocket's, and the token is read back from the subprotocol that would have carried it. Every request
of the session goes to that URL with the session's token. -/
namespace PhoenixChannel.Web
open PhoenixChannel.Runtime PhoenixChannel.Client Library

/-- A request as the browser is asked to make it. -/
structure HttpRequest where
  post : Bool
  url : String
  headers : List (String × String)
  body : Option String
deriving DecidableEq

inductive WebEndpoint where
  | url (url : String)
  | phoenix (endpoint : Endpoint)

structure LongPollSession where
  endpoint : EndpointUrl
  authToken : Option String
  transport : LongPoll

def longPollSuffix : List Char := "/longpoll".toList

/-- The path of a session, for the path that was resolved. -/
def longPollPath (path : String) : String :=
  let path := trimEnd path.toList
  if websocketSuffix.isSuffixOf path then String.ofList (path.rdrop websocketSuffix.length ++ longPollSuffix)
  else String.ofList (path ++ longPollSuffix)

def longPollScheme (scheme : String) : Except TransportError String :=
  if scheme = "ws" then .ok "http"
  else if scheme = "wss" then .ok "https"
  else if scheme = "http" ∨ scheme = "https" then .ok scheme
  else .error (connectError ("unsupported LongPoll URL scheme " ++ scheme))

/-- The token that a subprotocol carries. -/
def readAuthToken (formats : Formats) (protocols : List String) : Option String :=
  protocols[1]?.bind fun protocol =>
    if authTokenPrefix.toList.isPrefixOf protocol.toList then
      (formats.decode (String.ofList (protocol.toList.drop authTokenPrefix.toList.length))).bind fun bytes =>
        String.fromUTF8? ⟨bytes.toArray⟩
    else none

/-- A request carries the session's token in its URL. -/
def endpointUrl (endpoint : EndpointUrl) (token : Option String) : EndpointUrl :=
  { endpoint with query := endpoint.query ++ token.toList.map fun token => ("token", token) }

def httpRequest (formats : Formats) (session : LongPollSession) (request : PollRequest) : HttpRequest where
  post := request.body.isSome
  url := formats.write (endpointUrl session.endpoint request.token)
  headers :=
    (if request.body.isSome then ("Content-Type", "application/x-ndjson") else ("Accept", "application/json")) ::
      session.authToken.toList.map fun token => ("X-Phoenix-AuthToken", token)
  body := request.body

/-- `LongPollTransport::connect_resolved`; the handshake came to `outcome`. -/
def connectResolved (formats : Formats) (env : Env) (endpoint : ResolvedEndpoint) (outcome : HttpOutcome) :
    Except TransportError LongPollSession :=
  match formats.parse endpoint.url with
  | .error error => .error (connectError error)
  | .ok url =>
    match longPollScheme url.scheme with
    | .error error => .error error
    | .ok scheme =>
      match LongPoll.connect env outcome with
      | .error error => .error error
      | .ok transport =>
        .ok ⟨{ url with scheme, path := longPollPath url.path }, readAuthToken formats endpoint.protocols,
          transport⟩

def resolveEndpoint (formats : Formats) (attempt : Nat) : WebEndpoint → Except TransportError ResolvedEndpoint
  | .url url => .ok ⟨url, []⟩
  | .phoenix endpoint =>
    match endpoint.resolve formats attempt with
    | .ok resolved => .ok resolved
    | .error error => .error (connectError error.text)

/-- `LongPollConnector::connect`. -/
def longPollConnect (formats : Formats) (env : Env) (endpoint : WebEndpoint) (attempt : Nat) (outcome : HttpOutcome) :
    Except TransportError LongPollSession :=
  match resolveEndpoint formats attempt endpoint with
  | .error error => .error error
  | .ok resolved => connectResolved formats env resolved outcome

/-! ### The URL

The two paths are made from one, so each can be had from the other. -/

/-- The path beside the WebSocket's. -/
theorem longPollPath_websocketPath (path : String) :
    ∃ start, start ++ websocketSuffix = trimEnd (websocketPath path).toList ∧
      longPollPath (websocketPath path) = String.ofList (start ++ longPollSuffix) := by
  obtain ⟨start, hstart⟩ := (websocketPath_spec path).1
  have hstrip : (trimEnd (websocketPath path).toList).rdrop websocketSuffix.length = start := by
    rw [← hstart, List.rdrop_append_length]
  refine ⟨start, hstart, ?_⟩
  rw [longPollPath, if_pos (List.isSuffixOf_iff_suffix.mpr ⟨start, hstart⟩), hstrip]

theorem longPollScheme_of_websocket {scheme : String} (h : scheme = "ws" ∨ scheme = "wss") :
    longPollScheme scheme = .ok (if scheme = "ws" then "http" else "https") := by
  rcases h with rfl | rfl
  · rfl
  · rfl

/-! ### The token

The token is written into a subprotocol and read back out of it. -/

section
variable {formats : Formats} {x x' : Exchange} {events : List Traffic}

/-- The header has the token of the configuration. -/
theorem readAuthToken_protocols (token : Option String)
    (hd : ∀ text ∈ token, formats.decode (formats.encode (Codec.bytes text)) = some (Codec.bytes text)) :
    readAuthToken formats (Endpoint.protocols formats token) = token := by
  cases token with
  | none => rfl
  | some text =>
    have hlist : (authTokenPrefix ++ formats.encode (Codec.bytes text)).toList =
        authTokenPrefix.toList ++ (formats.encode (Codec.bytes text)).toList := String.toList_append
    have hread : Codec.utf8 (Codec.bytes text) "" = .ok text := Codec.utf8_eq_ok.mpr rfl
    rw [readAuthToken, Endpoint.protocols]
    show (if authTokenPrefix.toList.isPrefixOf (authTokenPrefix ++ _).toList then _ else none) = _
    rw [hlist, if_pos (List.isPrefixOf_iff_prefix.mpr (List.prefix_append ..)), List.drop_left,
      String.ofList_toList, hd text rfl, Option.bind_some]
    unfold Codec.utf8 at hread
    split at hread
    · rename_i text' he
      cases hread
      exact he
    · cases hread

/-- The request carries this token. -/
def Traffic.carries (token : Option String) : Traffic → Prop
  | .poll token' | .post token' => token' = token
  | .answer _ | .close => False

/-- An answer that is absorbed leaves a token that was given: the one it brings, or the one there was. -/
theorem given_of_answer {Given : Option String → Prop} {token : Option String}
    {result : Except TransportError PollResponse} (ht : Given token)
    (ha : ∀ response, result = .ok response → response.token ≠ none → Given response.token) :
    Given (LongPoll.tokenAfter token result) := by
  unfold LongPoll.tokenAfter
  split
  · rename_i response
    split
    · cases hresponse : response.token with
      | none => exact ht
      | some text =>
        have hgiven := ha response rfl (by rw [hresponse]; exact Option.some_ne_none text)
        rwa [hresponse] at hgiven
    · exact ht
  · exact ht

/-- The tokens in use are the first one and those that answers bring. -/
theorem carries_of_run {first : Option String} {Given : Option String → Prop} (hx : Given x.token)
    (ha : ∀ response, .answer (.ok response) ∈ events → response.token ≠ none → Given response.token)
    (hr : (exchange first).run x events = some x') {event : Traffic} (hm : event ∈ events) {token : Option String}
    (hc : event.carries token) : Given token := by
  induction events generalizing x with
  | nil => cases hm
  | cons next events ih =>
    obtain ⟨m, hstep, hr⟩ := Machine.run_cons.mp hr
    have hrest : ∀ response, .answer (.ok response) ∈ events → response.token ≠ none → Given response.token :=
      fun response hm => ha response (List.mem_cons_of_mem next hm)
    have hnext : Given m.token ∧ (next.carries token → Given token) := by
      cases next with
      | poll asked =>
        obtain ⟨⟨-, -, -, rfl⟩, hs⟩ := Option.ite_none_right_eq_some.mp hstep
        cases hs
        refine ⟨hx, fun hc => ?_⟩
        cases hc
        exact hx
      | answer result =>
        obtain ⟨-, hs⟩ := Option.ite_none_right_eq_some.mp hstep
        cases hs
        refine ⟨given_of_answer hx fun response he => ?_, False.elim⟩
        exact ha response (he ▸ List.mem_cons_self)
      | post asked =>
        obtain ⟨⟨-, rfl⟩, hs⟩ := Option.ite_none_right_eq_some.mp hstep
        cases hs
        refine ⟨hx, fun hc => ?_⟩
        cases hc
        exact hx
      | close =>
        cases hstep
        exact ⟨hx, False.elim⟩
    rcases List.mem_cons.mp hm with rfl | hm
    · exact hnext.2 hc
    · exact ih hnext.1 hrest hr hm

end

/-! ### The session

The token of a request is the last one that the server gave, or the endpoint's before there is any. -/

section
variable {formats : Formats} {env : Env} {text : String} {endpoint : Endpoint} {config : ConnectionConfig}
  {attempt : Nat} {outcome : HttpOutcome} {session : LongPollSession} {s : LongPoll} {request : PollRequest}

/-- What a session is connected with. -/
theorem longPollConnect_session (hn : Endpoint.new formats text = .ok endpoint)
    {loader : Nat → Except String ConnectionConfig} (hl : loader attempt = .ok config)
    (hparse : formats.parse (formats.write (endpoint.target config)) = .ok (endpoint.target config))
    (hd : ∀ text ∈ config.authToken, formats.decode (formats.encode (Codec.bytes text)) = some (Codec.bytes text))
    (hc : longPollConnect formats env (.phoenix (endpoint.connectionConfigLoader loader)) attempt outcome =
      .ok session) :
    LongPoll.connect env outcome = .ok session.transport ∧ session.authToken = config.authToken ∧
      ∃ start, start ++ websocketSuffix = trimEnd endpoint.url.path.toList ∧
        session.endpoint =
          { endpoint.target config with
            scheme := if endpoint.url.scheme = "ws" then "http" else "https"
            path := String.ofList (start ++ longPollSuffix) } := by
  obtain ⟨url, -, hscheme, rfl⟩ := Endpoint.new_eq_ok hn
  obtain ⟨start, hstart, hpath⟩ := longPollPath_websocketPath url.path
  let endpoint : Endpoint := ⟨{ url with path := websocketPath url.path }, staticConnectionConfig ⟨[], none⟩⟩
  have hresolve : resolveEndpoint formats attempt (.phoenix (endpoint.connectionConfigLoader loader)) =
      .ok ⟨formats.write (endpoint.target config), Endpoint.protocols formats config.authToken⟩ := by
    simp only [resolveEndpoint, Endpoint.resolve, Endpoint.connectionConfigLoader, hl]
    rfl
  rw [longPollConnect, hresolve] at hc
  dsimp only at hc
  rw [connectResolved, hparse] at hc
  dsimp only [Endpoint.target] at hc
  rw [longPollScheme_of_websocket hscheme] at hc
  cases ht : LongPoll.connect env outcome with
  | error error =>
    rw [ht] at hc
    cases hc
  | ok transport =>
    rw [ht, readAuthToken_protocols _ hd, hpath] at hc
    cases hc
    exact ⟨rfl, rfl, start, hstart, rfl⟩

/-- **Every request of a session goes where the attempt was to go.** Over every run of a session that was
connected with an endpoint, each poll and each post goes to the WebSocket's URL with its scheme replaced and
its last path segment `longpoll`, with the parameters of the attempt's configuration, the protocol version
and, last, a token that the handshake or an answer brought; it has the configuration's token in its header.
The GET of the handshake itself, which has no token yet, is made before there is a session. -/
theorem session_requests (hn : Endpoint.new formats text = .ok endpoint)
    {loader : Nat → Except String ConnectionConfig} (hl : loader attempt = .ok config)
    (hparse : formats.parse (formats.write (endpoint.target config)) = .ok (endpoint.target config))
    (hd : ∀ text ∈ config.authToken, formats.decode (formats.encode (Codec.bytes text)) = some (Codec.bytes text))
    (hc : longPollConnect formats env (.phoenix (endpoint.connectionConfigLoader loader)) attempt outcome =
      .ok session)
    (h : (longPoll env session.transport).Reachable s) (hr : .requested request ∈ s.trace) :
    ∃ start token, start ++ websocketSuffix = trimEnd endpoint.url.path.toList ∧
      (session.transport.token = some token ∨
        ∃ answered response, .answered answered (.ok response) ∈ s.trace ∧ response.token = some token) ∧
      httpRequest formats session request =
        { post := request.body.isSome
          url := formats.write
            { endpoint.url with
              scheme := if endpoint.url.scheme = "ws" then "http" else "https"
              path := String.ofList (start ++ longPollSuffix)
              query := Endpoint.unversioned endpoint.url.query ++ config.params ++
                [("vsn", v2ProtocolVersion), ("token", token)] }
          headers :=
            (if request.body.isSome then ("Content-Type", "application/x-ndjson")
              else ("Accept", "application/json")) ::
              config.authToken.toList.map fun token => ("X-Phoenix-AuthToken", token)
          body := request.body } := by
  obtain ⟨hconnect, hauth, start, hstart, hendpoint⟩ := longPollConnect_session hn hl hparse hd hc
  obtain ⟨x, hrun, -⟩ := LongPoll.reachable_inStep hconnect h
  obtain ⟨first, messages, hfirst⟩ := LongPoll.connected hconnect
  let Given (token : Option String) : Prop := ∃ text, token = some text ∧
    (session.transport.token = some text ∨
      ∃ answered response, LongPollEffect.answered answered (.ok response) ∈ s.trace ∧ response.token = some text)
  have hstarts : Given session.transport.token := ⟨first, by rw [hfirst], .inl (by rw [hfirst])⟩
  have hanswers : ∀ response, .answer (.ok response) ∈ s.traffic → response.token ≠ none → Given response.token := by
    intro response hm hne
    obtain ⟨text, htoken⟩ := Option.ne_none_iff_exists'.mp hne
    obtain ⟨effect, hm, he⟩ := List.mem_filterMap.mp hm
    cases effect with
    | answered answered result =>
      cases he
      exact ⟨text, htoken, .inr ⟨answered, response, hm, htoken⟩⟩
    | requested request => cases hbody : request.body <;> simp [LongPollEffect.traffic, hbody] at he
    | unissued _ | aborted _ | received _ | ended _ | sent _ => cases he
  let event : Traffic := if request.body.isSome then .post request.token else .poll request.token
  have hevent : event ∈ s.traffic := List.mem_filterMap.mpr ⟨_, hr, rfl⟩
  have hcarries : event.carries request.token := by
    show Traffic.carries _ (if request.body.isSome then .post request.token else .poll request.token)
    split
    · rfl
    · rfl
  obtain ⟨token, htoken, hgiven⟩ := carries_of_run hstarts hanswers hrun hevent hcarries
  refine ⟨start, token, hstart, hgiven, ?_⟩
  rw [httpRequest, hauth, hendpoint, htoken]
  simp only [endpointUrl, Endpoint.target, Option.toList_some, List.map_cons, List.map_nil, List.append_assoc]
  rfl

end

/-- The effect is this request. -/
def LongPollEffect.asks (request : PollRequest) : LongPollEffect → Bool
  | .requested request' => request' = request
  | .unissued _ | .answered _ _ | .aborted _ | .received _ | .ended _ | .sent _ => false

theorem eq_requested_of_asks {request : PollRequest} {effect : LongPollEffect} (h : effect.asks request = true) :
    effect = .requested request := by
  cases effect with
  | requested request' =>
    have hrequest : request' = request := of_decide_eq_true h
    rw [hrequest]
  | unissued _ | answered _ _ | aborted _ | received _ | ended _ | sent _ => cases h

/-- The first poll of a session whose handshake brought the token "a": a GET with the parameters of the
URL and of the configuration, the version and the token, in that order. -/
theorem session_requests_first :
    let url : EndpointUrl := ⟨"wss", "example.test", "/socket", [("existing", "yes")], none⟩
    let target : EndpointUrl :=
      ⟨"wss", "example.test", "/socket/websocket", [("existing", "yes"), ("user_id", "7"), ("vsn", "2.0.0")], none⟩
    let session : LongPollSession :=
      ⟨{ target with scheme := "https", path := "/socket/longpoll" }, some "1234", hello⟩
    ∃ s request, .requested request ∈ LongPoll.trace s ∧
      httpRequest (Endpoint.plainFormats [url, target]) session request =
        { post := false
          url := "https://example.test/socket/longpoll?existing=yes&user_id=7&vsn=2.0.0&token=a"
          headers := [("Accept", "application/json"), ("X-Phoenix-AuthToken", "1234")]
          body := none } := by
  intro url target session
  let formats : Formats := Endpoint.plainFormats [url, target]
  let config : ConnectionConfig := ⟨[("user_id", "7")], some "1234"⟩
  let endpoint : Endpoint := ⟨{ url with path := "/socket/websocket" }, staticConnectionConfig ⟨[], none⟩⟩
  have hn : Endpoint.new formats "wss://example.test/socket?existing=yes" = .ok endpoint := by
    have hparse : formats.parse "wss://example.test/socket?existing=yes" = .ok url := by decide +kernel
    have hpath : websocketPath url.path = "/socket/websocket" := by decide +kernel
    rw [Endpoint.new, hparse]
    dsimp only
    rw [hpath]
    rfl
  have hparse : formats.parse (formats.write (endpoint.target config)) = .ok (endpoint.target config) := by
    decide +kernel
  have hd : ∀ text ∈ config.authToken,
      formats.decode (formats.encode (Codec.bytes text)) = some (Codec.bytes text) := by
    decide +kernel
  have hc : longPollConnect formats smallWeb
      (.phoenix (endpoint.connectionConfigLoader (staticConnectionConfig config))) 0 (.replied 200 "hello") =
        .ok session := by
    have hpath : longPollPath "/socket/websocket" = "/socket/longpoll" := by decide +kernel
    have htoken : readAuthToken formats (Endpoint.protocols formats (some "1234")) = some "1234" := by decide +kernel
    show connectResolved formats smallWeb
      ⟨formats.write (endpoint.target config), Endpoint.protocols formats (some "1234")⟩
        (.replied 200 "hello") = .ok session
    rw [connectResolved, hparse]
    dsimp only [Endpoint.target]
    rw [htoken, hello_connected, hpath]
    rfl
  let first : PollRequest := ⟨2, some "a", none⟩
  obtain ⟨s, hreach, hs⟩ := (longPoll smallWeb session.transport).reachable_of_run [.poll .issued]
    (fun s => s.trace.any (LongPollEffect.asks first) ∧ s.trace.all (LongPollEffect.asks first)) (by decide +kernel)
  obtain ⟨hany, hall⟩ := of_decide_eq_true hs
  have hm : .requested first ∈ s.trace := by
    obtain ⟨effect, hm, he⟩ := List.any_eq_true.mp hany
    exact eq_requested_of_asks he ▸ hm
  obtain ⟨start, token, hstart, htoken, hrequest⟩ := session_requests hn rfl hparse hd hc hreach hm
  refine ⟨s, first, hm, ?_⟩
  have hpath : start = "/socket".toList := by
    have hended : start ++ websocketSuffix = "/socket".toList ++ websocketSuffix := hstart.trans (by decide +kernel)
    exact List.append_cancel_right hended
  -- no answer has come that could have brought another token
  have ht : token = "a" := by
    rcases htoken with hfirst | ⟨answered, response, ha, -⟩
    · exact (Option.some.inj hfirst).symm
    · cases eq_requested_of_asks (List.all_eq_true.mp hall _ ha)
  rw [hrequest, hpath, ht]
  decide +kernel

end PhoenixChannel.Web
