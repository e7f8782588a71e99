import XLN.Lib.Http
import XLN.Utility.Base64

/-!
# The websocket handshake

`Server/Thrift/ThriftApplication.cpp`: `WebSocketHttpHandlerFunc` gets the text of a request, takes the key
from the first line that starts with `Sec-WebSocket-Key`, wherever that is, and answers with the hash of it.
A request without such a line is answered as well. `answers_iff` says for which requests the answer is the
one to a header field of the request.
-/

namespace XLN
open Http

/-- What the handler writes to the transport, and `*keepChannel`. -/
structure HttpChannel where
  written : List ByteString
  keepChannel : Bool

namespace ThriftApplication

/-- The characters that `boost::trim` takes off. -/
def isspace (c : UInt8) : Bool :=
  c = 32 || (9 ≤ c && c ≤ 13)

def CRLF : ByteString := [13, 10]

/-- The name that the lines are compared with. -/
def secWebSocketKey : ByteString := ascii "Sec-WebSocket-Key"

def guid : ByteString := ascii "258EAFA5-E914-47DA-95CA-C5AB0DC85B11"

/-- The loop over the lines, which gives `secretKey`, or `none` where the handler returns. -/
def secretKey : List ByteString → Option ByteString
  | [] => some []
  | e :: v =>
    if secWebSocketKey <+: e then
      -- the parts replace the lines, but the loop ends here
      match e.splitOn 58 with
      | _ :: key :: _ => some (Trim.both isspace key)
      | _ => none
    else secretKey v

/-- The response, with the key that is accepted. -/
def header (result : ByteString) : ByteString :=
  ascii "HTTP/1.1 101 Switching Protocols" ++ CRLF ++
    (ascii "Upgrade: websocket" ++ CRLF ++
      (ascii "Connection: Upgrade" ++ CRLF ++
        (ascii "Sec-WebSocket-Accept: " ++ result ++ CRLF ++ CRLF)))

/-- `WebSocketHttpHandlerFunc`. -/
def webSocketHttpHandlerFunc (SHA1 : ByteString → Vector UInt8 20) (string : ByteString)
    (channel : HttpChannel) : HttpChannel :=
  match secretKey (string.splitOn 10) with
  | none => channel
  | some key =>
    { written := channel.written ++ [header (Base64.encode (SHA1 (key ++ guid)).toList)]
      keepChannel := true }

/-- If the handler writes or keeps the channel, then the request has a field with a key, and a response is
    written that accepts this key. -/
def Answers (SHA1 : ByteString → Vector UInt8 20) (string : ByteString) : Prop :=
  ∀ channel channel', webSocketHttpHandlerFunc SHA1 string channel = channel' →
    channel'.written ≠ channel.written ∨ channel'.keepChannel ≠ channel.keepChannel →
    ∃ value response, value ≠ [] ∧ HasField string (ascii "Sec-WebSocket-Key") value ∧
      channel'.written = channel.written ++ [response] ∧
      Carries response (ascii "Sec-WebSocket-Accept") (Rfc4648.base64 (SHA1 (value ++ guid)).toList)

/-- What stands between the first two colons of a line, or after the only one. -/
def betweenColons (line : ByteString) : ByteString :=
  Trim.both isspace ((afterColon line).takeWhile (· ≠ colon))

/-- There is a line that starts with the name, and the first one of these has no colon, or between its first
    two colons the value of a field with a key. -/
def KeyGiven (string : ByteString) : Prop :=
  ∃ line, (string.splitOn 10).find? (fun e => secWebSocketKey <+: e) = some line ∧
    (colon ∉ line ∨ betweenColons line ≠ [] ∧
      HasField string (ascii "Sec-WebSocket-Key") (betweenColons line))

variable {v : List ByteString} {line string result : ByteString}

/-! ## The key -/

/-- Without the line there is no key. -/
lemma secretKey_of_none (absent : v.find? (fun e => secWebSocketKey <+: e) = none) :
    secretKey v = some [] := by
  induction v with
  | nil => rfl
  | cons e v ih =>
    rw [List.find?_cons] at absent
    split at absent
    next => cases absent
    next other =>
      rw [secretKey, if_neg (of_decide_eq_false other)]
      exact ih absent

/-- The key stands between the colons of the first such line. -/
lemma secretKey_of_some (first : v.find? (fun e => secWebSocketKey <+: e) = some line) :
    secretKey v = if colon ∈ line then some (betweenColons line) else none := by
  induction v with
  | nil => cases first
  | cons e v ih =>
    rw [List.find?_cons] at first
    split at first
    next starts =>
      cases first
      rw [secretKey, if_pos (of_decide_eq_true starts)]
      by_cases mem : colon ∈ line
      · obtain ⟨rest, parts⟩ := splitOn_of_mem mem
        have parts' : line.splitOn 58 =
            line.takeWhile (· ≠ colon) :: (afterColon line).takeWhile (· ≠ colon) :: rest := parts
        rw [parts', if_pos mem]
        rfl
      · have whole : line.splitOn 58 = [line] := List.splitOn_eq_singleton mem
        rw [whole, if_neg mem]
    next other =>
      rw [secretKey, if_neg (of_decide_eq_false other)]
      exact ih first

/-! ## The response -/

/-- The lines of the response, each up to its LF. -/
def headerFields (result : ByteString) : List ByteString :=
  [ascii "Upgrade: websocket" ++ [cr], ascii "Connection: Upgrade" ++ [cr],
    ascii "Sec-WebSocket-Accept" ++ colon :: 32 :: (result ++ [cr])]

/-- The header that is written has its fields. -/
lemma headerLines_header (clean : lf ∉ result) : headerLines (header result) = headerFields result := by
  have lines : header result =
      (ascii "HTTP/1.1 101 Switching Protocols" ++ [cr]) ++ lf ::
        ((ascii "Upgrade: websocket" ++ [cr]) ++ lf ::
          ((ascii "Connection: Upgrade" ++ [cr]) ++ lf ::
            ((ascii "Sec-WebSocket-Accept" ++ colon :: 32 :: (result ++ [cr])) ++ lf ::
              ([cr] ++ lf :: [])))) := by
    have name : ascii "Sec-WebSocket-Accept: " = ascii "Sec-WebSocket-Accept" ++ [colon, 32] := by
      decide
    simp only [header, name, CRLF, cr, lf, List.append_assoc, List.cons_append, List.nil_append]
  have last : lf ∉ ascii "Sec-WebSocket-Accept" ++ colon :: 32 :: (result ++ [cr]) := by
    have first : lf ∉ ascii "Sec-WebSocket-Accept" := by decide
    have others : lf ≠ colon ∧ lf ≠ 32 ∧ lf ≠ cr := by decide
    simp [first, others, clean]
  have field : ascii "Sec-WebSocket-Accept" ++ colon :: 32 :: (result ++ [cr]) ≠ [] ∧
      ascii "Sec-WebSocket-Accept" ++ colon :: 32 :: (result ++ [cr]) ≠ [cr] :=
    ⟨nofun, nofun⟩
  rw [headerLines, lines, List.splitOn_append_cons_self_of_not_mem (by decide),
    List.splitOn_append_cons_self_of_not_mem (by decide),
    List.splitOn_append_cons_self_of_not_mem (by decide),
    List.splitOn_append_cons_self_of_not_mem last,
    List.splitOn_append_cons_self_of_not_mem (by decide), List.tail_cons,
    List.takeWhile_cons_of_pos (by decide), List.takeWhile_cons_of_pos (by decide),
    List.takeWhile_cons_of_pos (by exact decide_eq_true field), List.takeWhile_cons_of_neg (by decide)]
  rfl

/-- The response has one field with the key that is accepted. -/
lemma carries_header (clean : ∀ c ∈ result, isSpace c = false ∧ c ≠ lf) :
    Carries (header result) (ascii "Sec-WebSocket-Accept") result := by
  have lines : headerLines (header result) = headerFields result :=
    headerLines_header fun mem => (clean lf mem).2 rfl
  have name : fieldName (ascii "Sec-WebSocket-Accept" ++ colon :: 32 :: (result ++ [cr])) =
      ascii "Sec-WebSocket-Accept" := fieldName_append (by decide)
  have trimmed : fieldValue (ascii "Sec-WebSocket-Accept" ++ colon :: 32 :: (result ++ [cr])) =
      result := by
    rw [fieldValue, afterColon_append (by decide), Trim.both_cons (by decide), Trim.both_concat (by decide)]
    refine Trim.both_eq_self (fun c e => ?_) fun c e => ?_
    · exact (clean c (List.mem_of_mem_head? e)).1
    · exact (clean c (List.mem_of_mem_getLast? e)).1
  intro value
  unfold HasField
  rw [lines]
  constructor
  · rintro ⟨line, mem, -, same, rfl⟩
    simp only [headerFields, List.mem_cons, List.not_mem_nil, or_false] at mem
    rcases mem with rfl | rfl | rfl
    · exact absurd same (by decide)
    · exact absurd same (by decide)
    · exact trimmed
  · rintro rfl
    refine ⟨_, List.mem_cons_of_mem _ (List.mem_cons_of_mem _ List.mem_cons_self), ?_, ?_, trimmed⟩
    · exact List.mem_append_right _ List.mem_cons_self
    · rw [name]

/-- The base64 text has neither blanks nor line feeds. -/
lemma base64_clean {l : List UInt8} {c : UInt8} (mem : c ∈ Rfc4648.base64 l) :
    isSpace c = false ∧ c ≠ lf := by
  rcases Rfc4648.mem_base64 mem with rfl | ⟨n, lt, rfl⟩
  · decide
  · have digits : ∀ n < 64, isSpace (Rfc4648.digit n) = false ∧ Rfc4648.digit n ≠ lf := by
      decide +kernel
    exact digits n lt

/-! ## The answers -/

/-- Without a key there is no answer. -/
lemma handler_of_none (SHA1 : ByteString → Vector UInt8 20) (channel : HttpChannel)
    (returns : secretKey (string.splitOn 10) = none) :
    webSocketHttpHandlerFunc SHA1 string channel = channel := by
  rw [webSocketHttpHandlerFunc, returns]

/-- With a key the answer is the header of its hash. -/
lemma handler_of_some (SHA1 : ByteString → Vector UInt8 20) (channel : HttpChannel) {key : ByteString}
    (given : secretKey (string.splitOn 10) = some key) :
    webSocketHttpHandlerFunc SHA1 string channel =
      { written := channel.written ++ [header (Rfc4648.base64 (SHA1 (key ++ guid)).toList)]
        keepChannel := true } := by
  rw [webSocketHttpHandlerFunc, given]
  simp only [Base64.encode_eq]

/-- A hash function that tells one text from all others. -/
def tells (text : ByteString) (s : ByteString) : Vector UInt8 20 :=
  Vector.replicate 20 (if s = text then 0 else 1)

/-- The hash of one text tells this text apart. -/
lemma tells_injective {text s : ByteString}
    (same : Rfc4648.base64 (tells text s).toList = Rfc4648.base64 (tells text text).toList) : s = text := by
  by_contra ne
  rw [tells, tells, if_neg ne, if_pos rfl] at same
  exact absurd same (by decide)

/-- If every hash is the one of a field of the request, the key is the value of this field. -/
lemma field_of_answers (answers : ∀ SHA1, Answers SHA1 string) {key : ByteString}
    (given : secretKey (string.splitOn 10) = some key) :
    key ≠ [] ∧ HasField string (ascii "Sec-WebSocket-Key") key := by
  have written := handler_of_some (tells (key ++ guid)) ⟨[], false⟩ given
  obtain ⟨value, response, ne, field, one, carries⟩ :=
    answers (tells (key ++ guid)) ⟨[], false⟩ _ written (.inr nofun)
  obtain rfl : header _ = response := List.singleton_inj.mp one
  have accepted := (carries_header fun _ => base64_clean) _ |>.mp ((carries _).mpr rfl)
  have same : value = key := List.append_cancel_right (tells_injective accepted)
  rw [← same]
  exact ⟨ne, field⟩

/-- For a request, and whatever the hash function is, the handler answers only to a field with a key, and
    with the hash of that key, if and only if the first line that starts with the name of the field has no
    colon, or between its first two colons a key that is the value of such a field. -/
theorem answers_iff (string : ByteString) : (∀ SHA1, Answers SHA1 string) ↔ KeyGiven string := by
  constructor
  · intro answers
    cases found : (string.splitOn 10).find? (fun e => secWebSocketKey <+: e) with
    | none => exact absurd rfl (field_of_answers answers (secretKey_of_none found)).1
    | some line =>
      refine ⟨line, found, ?_⟩
      by_cases mem : colon ∈ line
      · have given := secretKey_of_some found
        rw [if_pos mem] at given
        exact .inr (field_of_answers answers given)
      · exact .inl mem
  · rintro ⟨line, found, key⟩ SHA1 channel channel' rfl changed
    have given := secretKey_of_some found
    by_cases mem : colon ∈ line
    · rw [if_pos mem] at given
      obtain ⟨ne, field⟩ := key.resolve_left fun absent => absent mem
      rw [handler_of_some SHA1 channel given]
      exact ⟨betweenColons line, _, ne, field, rfl, carries_header fun _ => base64_clean⟩
    · rw [if_neg mem] at given
      rw [handler_of_none SHA1 channel given] at changed
      rcases changed with e | e <;> exact absurd rfl e

/-- A request without a key is answered: the handler keeps the channel for every hash function. -/
theorem answers_without_key :
    let string := ascii "GET / HTTP/1.1" ++ CRLF ++ ascii "Host: a" ++ CRLF ++ CRLF
    ∀ SHA1, (webSocketHttpHandlerFunc SHA1 string ⟨[], false⟩).keepChannel = true ∧
      ¬ Answers SHA1 string := by
  intro string SHA1
  have given : secretKey (string.splitOn 10) = some [] := by decide
  have written := handler_of_some SHA1 ⟨[], false⟩ given
  refine ⟨by rw [written], fun answers => ?_⟩
  obtain ⟨value, -, -, ⟨line, mem, -, name, -⟩, -⟩ := answers ⟨[], false⟩ _ written (.inr nofun)
  -- the only header line has another name
  have lines : headerLines string = [ascii "Host: a" ++ [cr]] := by decide
  rw [lines, List.mem_singleton] at mem
  subst mem
  exact absurd name (by decide)

end ThriftApplication
end XLN
