import PhoenixChannel.Library.Framing
import PhoenixChannel.Runtime.Codec
import PhoenixChannel.Runtime.Transport
import Std.Data.String.ToNat

/-! HTTP CONNECT proxies.

A connection through a proxy asks it for a tunnel and reads its answer a byte at a time, so that
the first byte after the answer is the first of the tunnel. The URL parser, the base64 alphabet and
the network are parameters. -/
namespace PhoenixChannel.Native
open PhoenixChannel.Runtime PhoenixChannel.Library

structure ProxyConfig where
  url : String
  bypassHosts : List String

/-- What a proxy connection uses of a parsed URL. `port` is the known default where none is given. -/
structure Url where
  scheme : String
  host : Option String
  port : Option UInt16
  username : String
  password : Option String

/-- A connection: what was written, what a write fails with, and what its reads return, one after
another. Past the last of them the peer has closed. -/
structure TcpStream where
  written : List UInt8
  broken : Option String
  incoming : List (Except String UInt8)

/-- What is outside: `Url::parse`, `TcpStream::connect` and the standard base64 alphabet. -/
structure Network where
  parse : String → Except String Url
  connect : String → UInt16 → Except String TcpStream
  base64 : String → String

def connectError (message : String) : TransportError := ⟨.connect, message⟩

/-! ### Hosts that are not proxied

A host is bypassed if it is an entry of the list or a subdomain of one, without regard to case. -/

def asciiLowercase (text : List Char) : List Char := text.map Char.toLower

def ProxyConfig.appliesTo (proxy : ProxyConfig) (host : String) : Bool :=
  !proxy.bypassHosts.any fun entry =>
    let entry := entry.toList.dropWhile (· = '.')
    asciiLowercase host.toList = asciiLowercase entry ||
      ('.' :: asciiLowercase entry).isSuffixOf (asciiLowercase host.toList)

/-! ### Texts

The parts of the standard library the client uses on a response: decoding bytes with replacements,
lines and words. -/

/-- A character that takes more bytes: its bits so far, how many bytes are missing, and the range of
the next. -/
structure Unfinished where
  bits : Nat
  missing : Nat
  low : UInt8
  high : UInt8

/-- `char::REPLACEMENT_CHARACTER`. -/
def replacement : Char := '\uFFFD'

/-- What a byte between two characters is, or begins. -/
def lead (byte : UInt8) : Char ⊕ Unfinished :=
  if byte < 0x80 then .inl (Char.ofNat byte.toNat)
  else if 0xC2 ≤ byte && byte ≤ 0xDF then .inr ⟨byte.toNat - 0xC0, 1, 0x80, 0xBF⟩
  else if byte = 0xE0 then .inr ⟨0, 2, 0xA0, 0xBF⟩
  else if byte = 0xED then .inr ⟨0xD, 2, 0x80, 0x9F⟩
  else if 0xE1 ≤ byte && byte ≤ 0xEF then .inr ⟨byte.toNat - 0xE0, 2, 0x80, 0xBF⟩
  else if byte = 0xF0 then .inr ⟨0, 3, 0x90, 0xBF⟩
  else if 0xF1 ≤ byte && byte ≤ 0xF3 then .inr ⟨byte.toNat - 0xF0, 3, 0x80, 0xBF⟩
  else if byte = 0xF4 then .inr ⟨4, 3, 0x80, 0x8F⟩
  else .inl replacement

/-- The rest of a text, between two characters or inside one. What stops short of a character is
replaced as a whole. -/
def lossy : Option Unfinished → List UInt8 → List Char
  | none, [] => []
  | some _, [] => [replacement]
  | none, byte :: rest =>
    match lead byte with
    | .inl c => c :: lossy none rest
    | .inr begun => lossy (some begun) rest
  | some begun, byte :: rest =>
    if begun.low ≤ byte && byte ≤ begun.high then
      let bits := begun.bits * 64 + byte.toNat % 64
      if begun.missing = 1 then Char.ofNat bits :: lossy none rest
      else lossy (some ⟨bits, begun.missing - 1, 0x80, 0xBF⟩) rest
    else
      match lead byte with
      | .inl c => replacement :: c :: lossy none rest
      | .inr begun => replacement :: lossy (some begun) rest

/-- `String::from_utf8_lossy`. -/
def fromUtf8Lossy (bytes : List UInt8) : List Char := lossy none bytes

example : fromUtf8Lossy [72, 0xE2, 0x82, 0xAC, 0xE2, 0x82, 65, 0xFF] =
    ['H', '\u20AC', replacement, 'A', replacement] := by decide

/-- `char::is_whitespace`. -/
def isWhitespace (c : Char) : Bool :=
  let n := c.toNat
  (0x9 ≤ n && n ≤ 0xD) || n = 0x20 || n = 0x85 || n = 0xA0 || n = 0x1680 || (0x2000 ≤ n && n ≤ 0x200A) ||
    n = 0x2028 || n = 0x2029 || n = 0x202F || n = 0x205F || n = 0x3000

/-- `lines().next()`. -/
def firstLine (text : List Char) : Option (List Char) :=
  if text = [] then none
  else
    let line := text.takeWhile (· ≠ '\n')
    if line.length < text.length && line.getLast? = some '\r' then some line.dropLast else some line

/-- `split_whitespace()`. -/
def splitWhitespace (text : List Char) : List (List Char) :=
  (text.splitOnP isWhitespace).filter fun word => !word.isEmpty

/-! ### The tunnel

The request is written, the response is read up to its blank line, and the status code decides. -/

def authority (targetHost : String) (targetPort : UInt16) : String :=
  if targetHost.toList.contains ':' then "[" ++ targetHost ++ "]:" ++ toString targetPort.toNat
  else targetHost ++ ":" ++ toString targetPort.toNat

def authorization (net : Network) (url : Url) : String :=
  if url.username.isEmpty then ""
  else "Proxy-Authorization: Basic " ++ net.base64 (url.username ++ ":" ++ url.password.getD "") ++ "\r\n"

def request (net : Network) (url : Url) (targetHost : String) (targetPort : UInt16) : String :=
  "CONNECT " ++ authority targetHost targetPort ++ " HTTP/1.1\r\nHost: " ++ authority targetHost targetPort ++
    "\r\n" ++ authorization net url ++ "\r\n"

/-- `\r\n\r\n`. -/
def headEnd : List UInt8 := [13, 10, 13, 10]

/-- The condition on which the response is read no further. -/
def complete (response : List UInt8) : Bool := 8192 ≤ response.length || headEnd.isSuffixOf response

def accepted (status : List Char) : Bool :=
  ((firstLine status).bind fun line => (splitWhitespace line)[1]?).any fun code => code.head? = some '2'

def TcpStream.writeAll (stream : TcpStream) (bytes : List UInt8) : Except String TcpStream :=
  match stream.broken with
  | some error => .error error
  | none => .ok { stream with written := stream.written ++ bytes }

/-- Reads the response of the proxy. -/
def TcpStream.readResponse (stream : TcpStream) : Except TransportError TcpStream :=
  match readUntil complete stream.incoming [] with
  | .error .closed => .error (connectError "proxy closed before completing CONNECT")
  | .error (.failed error) => .error (connectError error)
  | .ok (response, incoming) =>
    if headEnd.isSuffixOf response then
      let status := fromUtf8Lossy response
      if accepted status then .ok { stream with incoming }
      else
        let line := (firstLine status).elim "invalid response" String.ofList
        .error (connectError ("proxy CONNECT failed: " ++ line))
    else .error (connectError "proxy CONNECT response headers are too large")

def connectProxy (net : Network) (proxy : ProxyConfig) (targetHost : String) (targetPort : UInt16) :
    Except TransportError TcpStream :=
  match net.parse proxy.url with
  | .error error => .error (connectError error)
  | .ok url =>
    if url.scheme ≠ "http" then .error (connectError "only HTTP CONNECT proxies are supported")
    else
      match url.host with
      | none => .error (connectError "proxy URL has no host")
      | some host =>
        match net.connect host (url.port.getD 80) with
        | .error error => .error (connectError error)
        | .ok stream =>
          match stream.writeAll (Codec.bytes (request net url targetHost targetPort)) with
          | .error error => .error (connectError error)
          | .ok stream => stream.readResponse

/-! ### Reading the response

The response is the head of the stream. So what is read is neither less nor more than it, however
the bytes arrive. -/

section
variable {net : Network} {proxy : ProxyConfig} {targetHost : String} {targetPort : UInt16}
  {stream tunnel : TcpStream} {head response : List UInt8} {incoming rest : List (Except String UInt8)}

/-- The response that is read to its end is a head of at most 8192 bytes. -/
theorem response_head (hm : headEnd <:+ head) :
    complete ([] ++ head) = true ∧ Unstopped complete [] head ↔ Head headEnd head ∧ head.length ≤ 8192 := by
  constructor
  · rintro ⟨-, hun⟩
    refine ⟨⟨hm, fun before hp hne hmark => ?_⟩, ?_⟩
    · have hstop := hun before hp hne
      rw [List.nil_append, complete, List.isSuffixOf_iff_suffix.mpr hmark, Bool.or_true] at hstop
      cases hstop
    · by_contra hlong
      have hshort : head.dropLast ≠ head := by
        intro he
        have hlength := congrArg List.length he
        rw [List.length_dropLast] at hlength
        omega
      have hstop := hun head.dropLast (List.dropLast_prefix head) hshort
      rw [List.nil_append, complete, Bool.or_eq_false_iff, decide_eq_false_iff_not, List.length_dropLast] at hstop
      omega
  · rintro ⟨hhead, hlength⟩
    refine ⟨?_, fun before hp hne => ?_⟩
    · rw [List.nil_append, complete, List.isSuffixOf_iff_suffix.mpr hm, Bool.or_true]
    · have hshort : before.length < head.length := by
        refine Nat.lt_of_le_of_ne hp.length_le fun he => hne (hp.eq_of_length he)
      have hunmarked : headEnd.isSuffixOf before = false := by
        rw [Bool.eq_false_iff]
        exact fun hmark => hhead.first before hp hne (List.isSuffixOf_iff_suffix.mp hmark)
      rw [List.nil_append, complete, hunmarked, Bool.or_false, decide_eq_false_iff_not]
      omega

/-- The bytes up to the end of the first head are read, and no others. -/
theorem readResponse_eq_ok :
    stream.readResponse = .ok tunnel ↔
      ∃ head, stream.incoming = head.map .ok ++ tunnel.incoming ∧ Head headEnd head ∧ head.length ≤ 8192 ∧
        accepted (fromUtf8Lossy head) = true ∧ tunnel = { stream with incoming := tunnel.incoming } := by
  unfold TcpStream.readResponse
  constructor
  · intro h
    cases hr : readUntil complete stream.incoming [] with
    | error failure =>
      rw [hr] at h
      cases failure <;> cases h
    | ok result =>
      obtain ⟨response, incoming⟩ := result
      rw [hr] at h
      dsimp only at h
      split at h
      · rename_i hm
        split at h
        · rename_i ha
          cases h
          obtain ⟨items, he, rfl, hs, hun⟩ := readUntil_eq_ok.mp hr
          obtain ⟨hhead, hlength⟩ := (response_head (List.isSuffixOf_iff_suffix.mp hm)).mp ⟨hs, hun⟩
          exact ⟨response, he, hhead, hlength, ha, rfl⟩
        · cases h
      · cases h
  · rintro ⟨head, he, hhead, hlength, ha, ht⟩
    obtain ⟨hs, hun⟩ := (response_head hhead.marked).mpr ⟨hhead, hlength⟩
    have hr : readUntil complete stream.incoming [] = .ok (head, tunnel.incoming) :=
      readUntil_eq_ok.mpr ⟨head, he, rfl, hs, hun⟩
    rw [hr]
    dsimp only
    rw [if_pos (List.isSuffixOf_iff_suffix.mpr hhead.marked), if_pos ha, ← ht]

/-- **When a tunnel is opened, and what is left in it.** A connection through a proxy succeeds if and
only if the proxy is an HTTP proxy that answers the request with one head of at most 8192 bytes and an
accepted status; everything after the head is left to be read from the tunnel. -/
theorem tunnel_opened_iff :
    connectProxy net proxy targetHost targetPort = .ok tunnel ↔
      ∃ url host stream head, net.parse proxy.url = .ok url ∧ url.scheme = "http" ∧ url.host = some host ∧
        net.connect host (url.port.getD 80) = .ok stream ∧ stream.broken = none ∧
        stream.incoming = head.map .ok ++ tunnel.incoming ∧ Head headEnd head ∧ head.length ≤ 8192 ∧
        accepted (fromUtf8Lossy head) = true ∧
        tunnel =
          ⟨stream.written ++ Codec.bytes (request net url targetHost targetPort), none, tunnel.incoming⟩ := by
  unfold connectProxy
  constructor
  · intro h
    cases hurl : net.parse proxy.url with
    | error error =>
      rw [hurl] at h
      cases h
    | ok url =>
      rw [hurl] at h
      dsimp only at h
      split at h
      · cases h
      · rename_i hscheme
        cases hhost : url.host with
        | none =>
          rw [hhost] at h
          cases h
        | some host =>
          rw [hhost] at h
          dsimp only at h
          cases hconnect : net.connect host (url.port.getD 80) with
          | error error =>
            rw [hconnect] at h
            cases h
          | ok stream =>
            rw [hconnect] at h
            cases hbroken : stream.broken with
            | some error =>
              simp only [TcpStream.writeAll, hbroken] at h
              cases h
            | none =>
              simp only [TcpStream.writeAll, hbroken] at h
              obtain ⟨head, he, hhead, hlength, ha, ht⟩ := readResponse_eq_ok.mp h
              exact ⟨url, host, stream, head, rfl, not_not.mp hscheme, hhost, hconnect, hbroken, he, hhead, hlength,
                ha, ht⟩
  · rintro ⟨url, host, stream, head, hurl, hscheme, hhost, hconnect, hbroken, he, hhead, hlength, ha, ht⟩
    simp only [hurl, hhost, hconnect, TcpStream.writeAll, hbroken, if_neg (not_not.mpr hscheme)]
    exact readResponse_eq_ok.mpr ⟨head, he, hhead, hlength, ha, ht⟩

end

/-! ### The first line

A line feed is a byte of no other character. -/

/-- A character that takes more bytes is none of the ASCII ones, and none of these bytes is ASCII. -/
def Unfinished.Wide (begun : Unfinished) : Prop :=
  0x80 ≤ begun.low ∧
    (2 ≤ begun.bits ∨ 2 ≤ begun.missing ∧ (begun.bits = 1 ∨ 0x90 ≤ begun.low ∧ begun.high ≤ 0xBF))

instance (begun : Unfinished) : Decidable begun.Wide := inferInstanceAs (Decidable (_ ∧ _))

/-- What begins a character of several bytes leaves bits that are too large for ASCII. -/
theorem lead_wide {byte : UInt8} {begun : Unfinished} (h : lead byte = .inr begun) : begun.Wide := by
  have hall : ∀ n < 256, (lead (UInt8.ofNat n)).getRight?.all (fun begun => decide begun.Wide) = true := by
    decide +kernel
  have hbyte := hall byte.toNat byte.toNat_lt
  rw [UInt8.ofNat_toNat, h] at hbyte
  exact of_decide_eq_true hbyte

/-- Only the byte of a line feed is one. -/
theorem lead_ne_newline {byte : UInt8} (hb : byte ≠ 10) : lead byte ≠ .inl '\n' := by
  have hall : ∀ n < 256, n ≠ 10 → (lead (UInt8.ofNat n)).getLeft? ≠ some '\n' := by decide +kernel
  intro h
  refine hall byte.toNat byte.toNat_lt (fun he => hb (UInt8.toNat_inj.mp he)) ?_
  rw [UInt8.ofNat_toNat, h]
  rfl

/-- A code point beyond ASCII is no line feed. -/
theorem ofNat_ne_newline {n : Nat} (h : 0x80 ≤ n) : Char.ofNat n ≠ '\n' := by
  intro he
  have hn := congrArg Char.toNat he
  unfold Char.ofNat at hn
  by_cases hv : n.isValidChar
  · rw [dif_pos hv] at hn
    have hn : n = 10 := hn
    omega
  · rw [dif_neg hv] at hn
    cases hn

/-- One more byte of a character: it is complete, or still one that is not ASCII. -/
theorem Unfinished.Wide.next {begun : Unfinished} (h : begun.Wide) {byte : UInt8}
    (hb : (begun.low ≤ byte && byte ≤ begun.high) = true) :
    (begun.missing = 1 → Char.ofNat (begun.bits * 64 + byte.toNat % 64) ≠ '\n') ∧
      Wide ⟨begun.bits * 64 + byte.toNat % 64, begun.missing - 1, 0x80, 0xBF⟩ := by
  rw [Bool.and_eq_true, decide_eq_true_iff, decide_eq_true_iff] at hb
  obtain ⟨hlow, hbits⟩ := h
  have hgrows : 2 ≤ begun.bits * 64 + byte.toNat % 64 := by
    rcases hbits with hbits | ⟨-, hbits | ⟨hfrom, hto⟩⟩
    · omega
    · omega
    · have hfrom := UInt8.le_iff_toNat_le.mp (Nat.le_trans hfrom hb.1)
      have hto := UInt8.le_iff_toNat_le.mp (Nat.le_trans hb.2 hto)
      have hfrom : 0x90 ≤ byte.toNat := hfrom
      have hto : byte.toNat ≤ 0xBF := hto
      omega
  refine ⟨fun hone => ofNat_ne_newline ?_, ⟨UInt8.le_refl 0x80, .inl hgrows⟩⟩
  rcases hbits with hbits | ⟨hmissing, -⟩ <;> omega

/-- What a byte adds to a text, and the state after it. -/
theorem lossy_step {state : Option Unfinished} (hw : ∀ begun ∈ state, begun.Wide) {byte : UInt8} (hb : byte ≠ 10) :
    ∃ chars state', (∀ begun ∈ state', Unfinished.Wide begun) ∧ '\n' ∉ chars ∧
      ∀ rest, lossy state (byte :: rest) = chars ++ lossy state' rest := by
  have hnone : ∀ begun ∈ (none : Option Unfinished), begun.Wide := fun begun hm => by cases hm
  have hsome : ∀ {begun : Unfinished}, begun.Wide → ∀ other ∈ some begun, Unfinished.Wide other := by
    intro begun h other hm
    cases hm
    exact h
  have hreplacement : replacement ≠ '\n' := by decide
  cases state with
  | none =>
    cases hl : lead byte with
    | inl c =>
      refine ⟨[c], none, hnone, fun hm => ?_, fun rest => by rw [lossy, hl]; rfl⟩
      exact lead_ne_newline hb (hl.trans (congrArg _ (List.mem_singleton.mp hm).symm))
    | inr begun =>
      exact ⟨[], some begun, hsome (lead_wide hl), List.not_mem_nil, fun rest => by rw [lossy, hl]; rfl⟩
  | some begun =>
    have hwide := hw begun rfl
    by_cases hin : (begun.low ≤ byte && byte ≤ begun.high) = true
    · obtain ⟨hchar, hwide'⟩ := hwide.next hin
      by_cases hone : begun.missing = 1
      · refine ⟨[Char.ofNat (begun.bits * 64 + byte.toNat % 64)], none, hnone, fun hm => ?_, fun rest => ?_⟩
        · exact hchar hone (List.mem_singleton.mp hm).symm
        · rw [lossy, if_pos hin, if_pos hone]
          rfl
      · exact ⟨[], some _, hsome hwide', List.not_mem_nil, fun rest => by rw [lossy, if_pos hin, if_neg hone]; rfl⟩
    · cases hl : lead byte with
      | inl c =>
        refine ⟨[replacement, c], none, hnone, fun hm => ?_, fun rest => by rw [lossy, if_neg hin, hl]; rfl⟩
        rcases List.mem_pair.mp hm with he | he
        · exact hreplacement he.symm
        · exact lead_ne_newline hb (hl.trans (congrArg _ he.symm))
      | inr begun' =>
        refine ⟨[replacement], some begun', hsome (lead_wide hl), fun hm => ?_, fun rest => ?_⟩
        · exact hreplacement (List.mem_singleton.mp hm).symm
        · rw [lossy, if_neg hin, hl]
          rfl

/-- Up to a line feed a text is that of the bytes before it, which have none. -/
theorem lossy_newline {first : List UInt8} (hf : 10 ∉ first) (more : List UInt8) {state : Option Unfinished}
    (hw : ∀ begun ∈ state, begun.Wide) :
    lossy state (first ++ 10 :: more) = lossy state first ++ '\n' :: lossy none more ∧ '\n' ∉ lossy state first := by
  induction first generalizing state with
  | nil =>
    cases state with
    | none => exact ⟨rfl, List.not_mem_nil⟩
    | some begun =>
      have hlow : ¬ (begun.low ≤ 10 && (10 : UInt8) ≤ begun.high) = true := by
        rw [Bool.and_eq_true, decide_eq_true_iff, decide_eq_true_iff]
        intro hin
        exact absurd (UInt8.le_iff_toNat_le.mp (Nat.le_trans (hw begun rfl).1 hin.1)) (by decide)
      refine ⟨?_, by rw [lossy]; decide⟩
      rw [List.nil_append, lossy, lossy, if_neg hlow]
      rfl
  | cons byte first ih =>
    rw [List.mem_cons, not_or] at hf
    obtain ⟨chars, state', hw', hchars, hstep⟩ := lossy_step hw (Ne.symm hf.1)
    obtain ⟨htext, hline⟩ := ih hf.2 hw'
    rw [List.cons_append, hstep, hstep, htext, List.append_assoc, List.mem_append, not_or]
    exact ⟨rfl, hchars, hline⟩

/-- A text is read up to its first mark. -/
theorem takeWhile_ne {T : Type} [DecidableEq T] {first : List T} {mark : T} (h : mark ∉ first) (more : List T) :
    (first ++ mark :: more).takeWhile (· ≠ mark) = first := by
  have hall : ∀ item ∈ first, decide (item ≠ mark) = true := by
    rintro item hm
    exact decide_eq_true fun he => h (he ▸ hm)
  rw [List.takeWhile_append_of_pos hall, List.takeWhile_cons_of_neg (by simp), List.append_nil]

/-- The first line of a head, as it is read: the bytes before the first line feed, without a carriage
return at the end. -/
def statusLine (head : List UInt8) : List Char :=
  let line := fromUtf8Lossy (head.takeWhile (· ≠ 10))
  if line.getLast? = some '\r' then line.dropLast else line

/-- Decoding does not move the end of the first line, so the line of the text is the line of the bytes. -/
theorem firstLine_head {head : List UInt8} (h : 10 ∈ head) :
    firstLine (fromUtf8Lossy head) = some (statusLine head) := by
  obtain ⟨first, more, rfl, hf⟩ := List.eq_append_cons_of_mem h
  obtain ⟨htext, hline⟩ := @lossy_newline first hf more none fun begun hm => by cases hm
  have hfirst := takeWhile_ne hf more
  have htake := takeWhile_ne hline (lossy none more)
  have hlonger : (lossy none first).length < (lossy none first ++ '\n' :: lossy none more).length := by
    rw [List.length_append, List.length_cons]
    omega
  have hsome : lossy none first ++ '\n' :: lossy none more ≠ [] :=
    List.append_ne_nil_of_right_ne_nil _ (List.cons_ne_nil _ _)
  simp only [firstLine, statusLine, fromUtf8Lossy, htext, hfirst, if_neg hsome, htake, decide_eq_true hlonger,
    Bool.true_and, decide_eq_true_iff]
  split <;> rfl

/-! ### The status code

The second word of the first line is the code, with any white space between the words. -/

/-- A line whose second word starts with a 2: the status code of a success. -/
def Successful (line : List Char) : Prop :=
  ∃ blank version gap rest : List Char, line = blank ++ (version ++ (gap ++ '2' :: rest)) ∧
    (∀ c ∈ blank, isWhitespace c = true) ∧ version ≠ [] ∧ (∀ c ∈ version, isWhitespace c = false) ∧
    gap ≠ [] ∧ ∀ c ∈ gap, isWhitespace c = true

section
variable {word blank rest : List Char} {c : Char}

/-- Blanks before a text add no word. -/
theorem splitWhitespace_blank (hb : ∀ d ∈ blank, isWhitespace d = true) (rest : List Char) :
    splitWhitespace (blank ++ rest) = splitWhitespace rest := by
  induction blank with
  | nil => rfl
  | cons d blank ih =>
    have hd := hb d List.mem_cons_self
    rw [← ih fun e hm => hb e (List.mem_cons_of_mem _ hm), List.cons_append, splitWhitespace,
      List.splitOnP_cons_eq_if_modifyHead, if_pos hd]
    rfl

/-- A word and a blank. -/
theorem splitWhitespace_word (hw : ∀ d ∈ word, isWhitespace d = false) (hne : word ≠ [])
    (hc : isWhitespace c = true) (rest : List Char) :
    splitWhitespace (word ++ c :: rest) = word :: splitWhitespace rest := by
  have hkept : (!word.isEmpty) = true := by rw [Bool.not_eq_true', List.isEmpty_eq_false_iff]; exact hne
  rw [splitWhitespace, List.splitOnP_append_cons_of_forall_mem hw c hc,
    List.filter_cons_of_pos (p := fun word : List Char => !word.isEmpty) hkept]
  rfl

/-- A text that does not start with a blank starts with its first word. -/
theorem splitWhitespace_cons (hc : isWhitespace c = false) (rest : List Char) :
    ∃ after others, splitWhitespace (c :: rest) = (c :: after) :: others := by
  obtain ⟨next, others, hsplit⟩ := List.exists_cons_of_ne_nil (List.splitOnP_ne_nil isWhitespace rest)
  refine ⟨next, others.filter fun word => !word.isEmpty, ?_⟩
  rw [splitWhitespace, List.splitOnP_cons_eq_if_modifyHead, hc, if_neg Bool.false_ne_true, hsplit,
    List.modifyHead_cons, List.filter_cons_of_pos (p := fun word : List Char => !word.isEmpty) rfl]

/-- A text that is one word. -/
theorem splitWhitespace_one (hw : ∀ d ∈ word, isWhitespace d = false) : (splitWhitespace word)[1]? = none := by
  have hone : word.splitOnP isWhitespace = [word] :=
    List.splitOnP_eq_singleton hw
  rw [splitWhitespace, hone, List.getElem?_eq_none_iff]
  exact List.length_filter_le ..

/-- A text is cut where a property of its characters ends. -/
theorem exists_span (p : Char → Bool) (text : List Char) :
    ∃ first rest, text = first ++ rest ∧ (∀ c ∈ first, p c = true) ∧
      (rest = [] ∨ ∃ c more, rest = c :: more ∧ p c = false) := by
  induction text with
  | nil => exact ⟨[], [], rfl, List.forall_mem_nil _, .inl rfl⟩
  | cons c text ih =>
    cases hc : p c with
    | false => exact ⟨[], c :: text, rfl, List.forall_mem_nil _, .inr ⟨c, text, rfl, hc⟩⟩
    | true =>
      obtain ⟨first, rest, rfl, hfirst, hrest⟩ := ih
      exact ⟨c :: first, rest, rfl, List.forall_mem_cons.mpr ⟨hc, hfirst⟩, hrest⟩

end

/-- The second of the words that `split_whitespace` gives starts with a 2. -/
theorem successful_iff (line : List Char) :
    Successful line ↔ ((splitWhitespace line)[1]?.any fun code => code.head? = some '2') = true := by
  constructor
  · rintro ⟨blank, version, gap, rest, rfl, hblank, hne, hversion, hgap, hgaps⟩
    obtain ⟨c, gap, rfl⟩ := List.exists_cons_of_ne_nil hgap
    obtain ⟨after, others, hcode⟩ := @splitWhitespace_cons '2' rfl rest
    rw [splitWhitespace_blank hblank, List.cons_append,
      splitWhitespace_word hversion hne (hgaps c List.mem_cons_self),
      splitWhitespace_blank (fun d hd => hgaps d (List.mem_cons_of_mem _ hd)), hcode]
    rfl
  · intro hcode
    obtain ⟨blank, text, rfl, hblank, htext⟩ := exists_span isWhitespace line
    rw [splitWhitespace_blank hblank] at hcode
    obtain ⟨version, text, rfl, hversion, hafter⟩ := exists_span (fun c => !isWhitespace c) text
    have hversion : ∀ c ∈ version, isWhitespace c = false := fun c hm => by
      have hc := hversion c hm
      rwa [Bool.not_eq_true'] at hc
    have hne : version ≠ [] := by
      rintro rfl
      rcases htext with htext | ⟨c, more, htext, hc⟩ <;> rw [List.nil_append] at htext
      · rw [List.nil_append, htext] at hcode
        cases hcode
      · rcases hafter with rfl | ⟨d, more', rfl, hd⟩
        · cases htext
        · cases (List.cons.inj htext).1
          rw [hc] at hd
          cases hd
    rcases hafter with rfl | ⟨c, text, rfl, hc⟩
    · rw [List.append_nil, splitWhitespace_one hversion] at hcode
      cases hcode
    · have hc : isWhitespace c = true := by rwa [Bool.not_eq_false'] at hc
      rw [splitWhitespace_word hversion hne hc] at hcode
      obtain ⟨gap, text, rfl, hgap, hlast⟩ := exists_span isWhitespace text
      rw [List.getElem?_cons_succ, splitWhitespace_blank hgap] at hcode
      rcases hlast with rfl | ⟨d, rest, rfl, hd⟩
      · cases hcode
      · obtain ⟨after, others, hwords⟩ := splitWhitespace_cons hd rest
        rw [hwords, List.getElem?_cons_zero, Option.any_some, List.head?_cons, decide_eq_true_iff] at hcode
        cases hcode
        exact ⟨blank, version, c :: gap, rest, rfl, hblank, hne, hversion, List.cons_ne_nil c gap,
          List.forall_mem_cons.mpr ⟨hc, hgap⟩⟩

/-- **What a proxy's answer leads to.** A proxy that answers with a complete head of at most 8192 bytes, whatever
its headers are and whatever follows, opens the tunnel with all that follows in it if the second word of
its first line starts with a 2, and else fails the connection with that line. -/
theorem tunnel_by_status {stream : TcpStream} {head : List UInt8} {after : List (Except String UInt8)}
    (hhead : Head headEnd head) (hlength : head.length ≤ 8192) (hi : stream.incoming = head.map .ok ++ after) :
    (Successful (statusLine head) → stream.readResponse = .ok { stream with incoming := after }) ∧
      (¬ Successful (statusLine head) → stream.readResponse =
        .error (connectError ("proxy CONNECT failed: " ++ String.ofList (statusLine head)))) := by
  have hline : firstLine (fromUtf8Lossy head) = some (statusLine head) := by
    obtain ⟨before, hbefore⟩ := hhead.marked
    refine firstLine_head ?_
    rw [← hbefore]
    exact List.mem_append_right before (by decide)
  have haccepted : accepted (fromUtf8Lossy head) = true ↔ Successful (statusLine head) := by
    rw [accepted, hline, Option.bind_some, successful_iff]
  constructor
  · intro hs
    exact readResponse_eq_ok.mpr ⟨head, hi, hhead, hlength, haccepted.mpr hs, rfl⟩
  · intro hs
    obtain ⟨hstop, hun⟩ := (response_head hhead.marked).mpr ⟨hhead, hlength⟩
    have hr : readUntil complete stream.incoming [] = .ok (head, after) :=
      readUntil_eq_ok.mpr ⟨head, hi, rfl, hstop, hun⟩
    rw [TcpStream.readResponse, hr]
    dsimp only
    rw [if_pos (List.isSuffixOf_iff_suffix.mpr hhead.marked), if_neg fun ha => hs (haccepted.mp ha), hline,
      Option.elim_some]

/-- A proxy that answers with these bytes. -/
def answering (head : String) (after : List (Except String UInt8)) : TcpStream :=
  ⟨[], none, (Codec.bytes head).map .ok ++ after⟩

/-- "200" after two blanks, with a byte of the tunnel, and "407". -/
theorem tunnel_by_status_200 :
    (answering "HTTP/1.1  200\r\n\r\n" [.ok 7]).readResponse = .ok ⟨[], none, [.ok 7]⟩ ∧
      (answering "HTTP/1.1 407 No\r\n\r\n" []).readResponse =
        .error (connectError "proxy CONNECT failed: HTTP/1.1 407 No") := by
  constructor
  · have hlines : ∀ line ∈ [Codec.bytes "HTTP/1.1  200"], line ≠ [] ∧ 13 ∉ line := by decide +kernel
    have hhead : Head headEnd (Codec.bytes "HTTP/1.1  200\r\n\r\n") :=
      head_headOf (by decide) (List.cons_ne_nil (Codec.bytes "HTTP/1.1  200") []) hlines
    have hsuccess : Successful (statusLine (Codec.bytes "HTTP/1.1  200\r\n\r\n")) :=
      (successful_iff _).mpr (by decide +kernel)
    exact (tunnel_by_status hhead (by decide +kernel) rfl).1 hsuccess
  · have hlines : ∀ line ∈ [Codec.bytes "HTTP/1.1 407 No"], line ≠ [] ∧ 13 ∉ line := by decide +kernel
    have hhead : Head headEnd (Codec.bytes "HTTP/1.1 407 No\r\n\r\n") :=
      head_headOf (by decide) (List.cons_ne_nil (Codec.bytes "HTTP/1.1 407 No") []) hlines
    have hrefused : ¬ Successful (statusLine (Codec.bytes "HTTP/1.1 407 No\r\n\r\n")) := by
      rw [successful_iff]
      decide +kernel
    exact (tunnel_by_status hhead (by decide +kernel) rfl).2 hrefused

/-! ### The request

The lines of a request can be told apart as long as the host has no line end and no blank in it. -/

/-- The lines of the request. -/
def requestLines (net : Network) (url : Url) (targetHost : String) (targetPort : UInt16) : List String :=
  ["CONNECT " ++ authority targetHost targetPort ++ " HTTP/1.1", "Host: " ++ authority targetHost targetPort] ++
    if url.username.isEmpty then []
    else ["Proxy-Authorization: Basic " ++ net.base64 (url.username ++ ":" ++ url.password.getD "")]

section
variable {net : Network} {url : Url} {targetHost : String} {targetPort : UInt16}

/-- A request is its lines, each with its end, and an empty one. -/
theorem request_toList :
    (request net url targetHost targetPort).toList =
      headOf '\r' '\n' ((requestLines net url targetHost targetPort).map String.toList) := by
  unfold request requestLines authorization headOf
  split
  · simp
  · simp

/-- A host as an authority spells it. -/
def spelled (host : String) : List Char :=
  if host.toList.contains ':' then '[' :: host.toList ++ [']'] else host.toList

/-- An authority is the host, spelled in brackets if it has a colon, a colon and the port in decimal. -/
theorem authority_toList :
    (authority targetHost targetPort).toList = spelled targetHost ++ ':' :: Nat.toDigits 10 targetPort.toNat := by
  unfold authority spelled
  split
  · simp
  · simp

theorem colon_not_mem_digits {n : Nat} : ':' ∉ Nat.toDigits 10 n := fun hm => by
  cases Nat.isDigit_of_mem_toDigits (by decide) (by decide) hm

/-- What an authority adds to its host are brackets, a colon and digits. -/
theorem not_mem_authority {c : Char} (hc : c ∉ ['[', ']', ':']) (hd : c.isDigit = false) (hh : c ∉ targetHost.toList) :
    c ∉ (authority targetHost targetPort).toList := by
  have hspelled : c ∉ spelled targetHost := by
    unfold spelled
    split
    · simp only [List.mem_cons, List.mem_append, List.not_mem_nil, or_false, not_or] at hc ⊢
      exact ⟨⟨hc.1, hh⟩, hc.2.1⟩
    · exact hh
  have hdigits : c ∉ Nat.toDigits 10 targetPort.toNat := fun hm =>
    Bool.false_ne_true (hd.symm.trans (Nat.isDigit_of_mem_toDigits (by decide) (by decide) hm))
  rw [authority_toList, List.mem_append, List.mem_cons, not_or, not_or]
  exact ⟨hspelled, fun he => hc (by rw [he]; decide), hdigits⟩

/-- The brackets can be taken off again. -/
theorem spelled_inj {host host' : String} (h : spelled host = spelled host') : host = host' := by
  refine String.toList_inj.mp ?_
  unfold spelled at h
  split at h <;> split at h
  · exact List.append_cancel_right (List.cons.inj h).2
  · rename_i hcolon hnone
    refine absurd (List.contains_iff_mem.mpr ?_) hnone
    rw [← h]
    exact List.mem_cons_of_mem _ (List.mem_append_left _ (List.contains_iff_mem.mp hcolon))
  · rename_i hnone hcolon
    refine absurd (List.contains_iff_mem.mpr ?_) hnone
    rw [h]
    exact List.mem_cons_of_mem _ (List.mem_append_left _ (List.contains_iff_mem.mp hcolon))
  · exact h

/-- The last colon is the one before the port. -/
theorem authority_inj {host host' : String} {port port' : UInt16} (h : authority host port = authority host' port') :
    host = host' ∧ port = port' := by
  have hlist := congrArg String.toList h
  rw [authority_toList, authority_toList] at hlist
  obtain ⟨hspelled, hdigits⟩ := cut_last colon_not_mem_digits colon_not_mem_digits hlist
  refine ⟨spelled_inj hspelled, UInt16.toNat_inj.mp ?_⟩
  refine Nat.repr_injective (String.toList_inj.mp ?_)
  rw [Nat.toList_repr, Nat.toList_repr, hdigits]

/-- **The request says one thing.** Where neither the host nor the base64 alphabet has a carriage return,
the request is one head: a proxy that reads up to an empty line has read it all. Where hosts have no
blanks either, two requests that are the same are for the same host and port, whoever asks. -/
theorem request_unambiguous (hb : ∀ text, '\r' ∉ (net.base64 text).toList) (hr : '\r' ∉ targetHost.toList) :
    Head ['\r', '\n', '\r', '\n'] (request net url targetHost targetPort).toList ∧
      ∀ (url' : Url) (host : String) (port : UInt16), ' ' ∉ targetHost.toList → ' ' ∉ host.toList →
        request net url targetHost targetPort = request net url' host port →
          targetHost = host ∧ targetPort = port := by
  constructor
  · rw [request_toList]
    have hauthority : '\r' ∉ (authority targetHost targetPort).toList := not_mem_authority (by decide) rfl hr
    refine head_headOf (by decide) (by simp [requestLines]) fun line hline => ?_
    obtain ⟨text, hm, rfl⟩ := List.mem_map.mp hline
    rcases List.mem_append.mp hm with hm | hm
    · rcases List.mem_pair.mp hm with rfl | rfl
      · simp [hauthority]
      · simp [hauthority]
    · split at hm
      · cases hm
      · cases List.mem_singleton.mp hm
        simp [hb]
  · intro url' host port hs hs' he
    have hlist := congrArg String.toList he
    have hrequest : ∀ (url : Url) (host : String) (port : UInt16), ∃ after,
        (request net url host port).toList = "CONNECT ".toList ++ ((authority host port).toList ++ ' ' :: after) := by
      intro url host port
      refine ⟨("HTTP/1.1\r\nHost: " ++ authority host port ++ "\r\n" ++ authorization net url ++ "\r\n").toList, ?_⟩
      simp [request]
    obtain ⟨after, h⟩ := hrequest url targetHost targetPort
    obtain ⟨after', h'⟩ := hrequest url' host port
    rw [h, h'] at hlist
    have hblank : ∀ (host : String) (port : UInt16), ' ' ∉ host.toList → ' ' ∉ (authority host port).toList :=
      fun _ _ hs => not_mem_authority (by decide) rfl hs
    obtain ⟨hauthority, -⟩ := cut_first (hblank _ _ hs) (hblank _ _ hs') (List.append_cancel_left hlist)
    exact authority_inj (String.toList_inj.mp hauthority)

/-- "example.com" by an authenticated request. -/
theorem request_unambiguous_example :
    let net : Network :=
      ⟨fun _ => .error "relative URL without a base", fun _ _ => .error "unreachable", fun _ => "dXNlcjpwYXNz"⟩
    let url : Url := ⟨"http", some "localhost", some 8080, "user", some "pass"⟩
    Head ['\r', '\n', '\r', '\n'] (request net url "example.com" 443).toList := by
  intro net url
  have hb : '\r' ∉ "dXNlcjpwYXNz".toList := by decide +kernel
  exact (request_unambiguous (fun _ => hb) (by decide +kernel)).1

end

/-! ### Bypassed hosts

Said of labels instead of texts. -/

/-- The labels of a domain name, in small letters. -/
def labels (name : List Char) : List (List Char) := (asciiLowercase name).splitOn '.'

/-- **A host is bypassed label by label.** It is connected to directly if and only if the labels of some
entry, without dots in front, are its last labels, so with a domain all of its subdomains are and no
other name that ends in the same letters. -/
theorem bypassed_by_labels (proxy : ProxyConfig) (host : String) :
    (proxy.appliesTo host = false ↔
      ∃ entry ∈ proxy.bypassHosts, labels (entry.toList.dropWhile (· = '.')) <:+ labels host.toList) ∧
    ∀ subdomain : String, proxy.appliesTo host = false → proxy.appliesTo (subdomain ++ "." ++ host) = false := by
  have hiff : ∀ host : String, proxy.appliesTo host = false ↔
      ∃ entry ∈ proxy.bypassHosts, labels (entry.toList.dropWhile (· = '.')) <:+ labels host.toList := by
    intro host
    rw [ProxyConfig.appliesTo, Bool.not_eq_false', List.any_eq_true]
    refine exists_congr fun entry => and_congr_right fun _ => ?_
    rw [labels, labels, splitOn_suffix_splitOn, Bool.or_eq_true, decide_eq_true_iff, List.isSuffixOf_iff_suffix]
  refine ⟨hiff host, fun subdomain h => ?_⟩
  obtain ⟨entry, hm, hlabels⟩ := (hiff host).mp h
  refine (hiff _).mpr ⟨entry, hm, hlabels.trans ?_⟩
  have hsplit : labels (subdomain ++ "." ++ host).toList = labels subdomain.toList ++ labels host.toList := by
    rw [labels, labels, labels, ← List.splitOn_append_cons_self]
    simp [asciiLowercase]
  rw [hsplit]
  exact List.suffix_append ..

/-- A host, one of its subdomains, and a name that only ends alike. -/
theorem bypassed_by_labels_example :
    let proxy : ProxyConfig := ⟨"http://localhost:8080", [".Example.com"]⟩
    proxy.appliesTo "example.com" = false ∧ proxy.appliesTo "api.example.com" = false ∧
      proxy.appliesTo "notexample.com" = true := by
  intro proxy
  have hhost : proxy.appliesTo "example.com" = false := by decide +kernel
  exact ⟨hhost, (bypassed_by_labels proxy "example.com").2 "api" hhost, by decide +kernel⟩

end PhoenixChannel.Native
