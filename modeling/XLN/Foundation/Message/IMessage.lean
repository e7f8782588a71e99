import XLN.Foundation.Message.BaseMessage
import XLN.Utility.UniqueID

/-!
# Messages on a stream

`Core/Foundation/Message/IMessage.cpp`: `MsgToStream` writes the class ID of a message and then its
contents, `StreamToMsg` reads a class ID, creates an object with the creator registered under it and
lets that read its contents. The message classes of the repository are `KeyValuePairMessage` and the
`WebViewMessage` derived from it; only the first registers a creator.
-/

namespace XLN
open MemoryDataStream

/-- `XGf::WebViewMessage::Command`. -/
inductive Command where
  | LOAD_URL
  | INJECT_JSCRIPT
  deriving DecidableEq

/-- A message object. -/
inductive IMessage where
  | keyValuePair (msg : KeyValuePairMessage)
  | webView (msg : KeyValuePairMessage) (m_Command : Command) (m_WebViewID : ByteString)

/-- The class IDs, which are hashes of the class names. -/
structure ClassIDs where
  KeyValuePairMessageUID : UniqueID
  WebViewMessageUID : UniqueID

namespace IMessage
variable (ids : ClassIDs) (ndebug : Bool)

/-- `ObjClassID`. -/
def objClassID : IMessage → UniqueID
  | keyValuePair _ => ids.KeyValuePairMessageUID
  | webView _ _ _ => ids.WebViewMessageUID

/-- The virtual `ToStream`. -/
def toStream : IMessage → MemoryDataStream → Option MemoryDataStream
  | keyValuePair msg, stream => msg.toStream ndebug stream
  | webView msg _ _, stream => msg.toStream ndebug stream

/-- The virtual `FromStream`. -/
def fromStream (heap : Nat → Nat → UInt8) :
    IMessage → MemoryDataStream → Option (IMessage × MemoryDataStream)
  | keyValuePair msg, stream => do
    let ((_, msg), stream) ← msg.fromStream ndebug heap stream
    some (keyValuePair msg, stream)
  | webView msg m_Command m_WebViewID, stream => do
    let ((_, msg), stream) ← msg.fromStream ndebug heap stream
    some (webView msg m_Command m_WebViewID, stream)

/-- `std::map<UniqueID, MessageCeator>`, with the object a creator makes. -/
abbrev MsgCreator := List (UniqueID × IMessage)

/-- `IMessage::RegisterMessageCreator`. -/
def registerMessageCreator (id : UniqueID) (cb : IMessage) (creators : MsgCreator) : MsgCreator :=
  if (creators.find? fun e => e.1 = id).isSome then creators else (id, cb) :: creators

/-- `IMessage::GetMsgCreator`, after the static `MessageCretorRegister` objects have been made. -/
def getMsgCreator : MsgCreator :=
  registerMessageCreator ids.KeyValuePairMessageUID (keyValuePair .new) []

/-- `IMessage::StreamToMsg`; the message is `none` where the source returns a null pointer. -/
def streamToMsg (heap : Nat → Nat → UInt8) (stream : MemoryDataStream) :
    Option (Option IMessage × MemoryDataStream) := do
  let id := UniqueID.new
  let (bytes, stream) ← stream.read ndebug id.getByteLength
  let data := overwrite id.data 0 bytes
  match (getMsgCreator ids).find? fun e => e.1.data = data with
  | some (_, newMessage) =>
    let (newMessage, stream) ← newMessage.fromStream ndebug heap stream
    some (some newMessage, stream)
  | none => some (none, stream)

/-- `IMessage::MsgToStream`. -/
def msgToStream (msg : IMessage) (stream : MemoryDataStream) : Option MemoryDataStream := do
  let stream ← stream.write ndebug (msg.objClassID ids).data
  msg.toStream ndebug stream

/-! ## A sequence of messages -/

/-- `MsgToStream` of one message after the other. -/
def writeAll (msgs : List KeyValuePairMessage) (stream : MemoryDataStream) :
    Option MemoryDataStream :=
  msgs.foldlM (fun stream msg => msgToStream ids ndebug (keyValuePair msg) stream) stream

/-- One more call of `StreamToMsg`, with the messages so far; `heap n` is for the `n`-th call. -/
def readNext (heap : Nat → Nat → Nat → UInt8) (msgs : List (Option IMessage))
    (stream : MemoryDataStream) : Option (List (Option IMessage) × MemoryDataStream) := do
  let (msg, stream) ← streamToMsg ids ndebug (heap msgs.length) stream
  some (msgs ++ [msg], stream)

/-- `n` calls of `StreamToMsg`. -/
def readAll (heap : Nat → Nat → Nat → UInt8) (n : Nat) (stream : MemoryDataStream) :
    Option (List (Option IMessage) × MemoryDataStream) :=
  Tape.times (readNext ids ndebug heap) n [] stream

/-- After the messages have been written to `stream`, the cursor of the reader stands before and after
    every call where the cursor of the writer stood, and the call gives a key/value message. -/
def InSync (heap : Nat → Nat → Nat → UInt8) (msgs : List KeyValuePairMessage)
    (stream : MemoryDataStream) : Prop :=
  ∃ written start, writeAll ids ndebug msgs stream = some written ∧
    written.seek ndebug 0 = some start ∧
      ∀ before msg after, msgs = before ++ msg :: after →
        ∃ w w' r r' results reply,
          writeAll ids ndebug before stream = some w ∧
          msgToStream ids ndebug (keyValuePair msg) w = some w' ∧
          readAll ids ndebug heap before.length start = some (results, r) ∧
          readAll ids ndebug heap (before.length + 1) start =
            some (results ++ [some (keyValuePair reply)], r') ∧
          r.tell = w.tell ∧ r'.tell = w'.tell

/-- What `MsgToStream` writes for a key/value message. -/
def frame (msg : KeyValuePairMessage) : List UInt8 :=
  ids.KeyValuePairMessageUID.data ++ msg.encode

variable {ids : ClassIDs} {ndebug : Bool} {msg : KeyValuePairMessage}

/-- The class id of the message has its creator. -/
lemma find_creator :
    (getMsgCreator ids).find? (fun e => e.1.data = ids.KeyValuePairMessageUID.data) =
      some (ids.KeyValuePairMessageUID, keyValuePair .new) := by
  simp [getMsgCreator, registerMessageCreator]

/-- A short message is written as its frame. -/
lemma msgToStream_writes (ids : ClassIDs) (ndebug : Bool) (small : msg.Small) :
    Tape.Writes At (msgToStream ids ndebug (keyValuePair msg)) (frame ids msg) :=
  (write_writes ndebug ids.KeyValuePairMessageUID.data).bind
    (KeyValuePairMessage.toStream_writes ndebug small)

/-- The object that comes back for a message. -/
def reply (msg : KeyValuePairMessage) : IMessage :=
  keyValuePair ⟨KeyValuePairMessage.decode ∅ msg.m_KeyValuePair.toList⟩

/-- A whole class ID replaces the nil one. -/
lemma overwrite_new (id : UniqueID) : overwrite UniqueID.new.data 0 id.data = id.data := by
  have same : id.data.length = UniqueID.new.data.length := by
    rw [UniqueID.size, UniqueID.size]
  simpa [same] using @overwrite_append [] UniqueID.new.data _ same.le

/-- `StreamToMsg` begins with the class ID. -/
lemma read_classID (ndebug : Bool) {s : MemoryDataStream} {left right : List UInt8} {id : UniqueID}
    (hs : s.At left (id.data ++ right)) :
    ∃ s1, s.read ndebug UniqueID.new.getByteLength = some (id.data, s1) ∧
      s1.At (left ++ id.data) right := by
  obtain ⟨s1, e1, h1⟩ := read_reads ndebug id.data hs
  rw [UniqueID.size] at e1
  exact ⟨s1, e1, h1⟩

/-- A frame whose pairs fit is read as the reply. -/
lemma streamToMsg_reads (ndebug : Bool) (heap : Nat → Nat → UInt8) (small : msg.Small)
    (fits : ∀ e ∈ msg.m_KeyValuePair.toList, KeyValuePairMessage.Fits e) :
    Tape.Reads At (streamToMsg ids ndebug heap) (frame ids msg) (some (reply msg)) := by
  intro s left right hs
  rw [frame, List.append_assoc] at hs
  obtain ⟨s1, e1, h1⟩ := read_classID ndebug hs
  obtain ⟨s2, e2, h2⟩ := KeyValuePairMessage.fromStream_reads ndebug heap small fits .new h1
  refine ⟨s2, ?_, by rwa [frame, ← List.append_assoc]⟩
  simp only [streamToMsg, e1, overwrite_new, find_creator, fromStream, e2, Option.bind_eq_bind,
    Option.bind_some]
  rfl

/-- A frame with a pair that does not fit is not read. -/
lemma streamToMsg_fails (ndebug : Bool) (heap : Nat → Nat → UInt8) (small : msg.Small)
    (long : ∃ e ∈ msg.m_KeyValuePair.toList, ¬ KeyValuePairMessage.Fits e) :
    Tape.Fails At (streamToMsg ids ndebug heap) (frame ids msg) := by
  intro s left right hs
  rw [frame, List.append_assoc] at hs
  obtain ⟨s1, e1, h1⟩ := read_classID ndebug hs
  have e2 := KeyValuePairMessage.fromStream_fails ndebug heap small long .new h1
  simp only [streamToMsg, e1, overwrite_new, find_creator, fromStream, e2, Option.bind_eq_bind,
    Option.bind_some, Option.bind_none]

/-- The next message is read from its frame. -/
lemma readNext_reads (heap : Nat → Nat → Nat → UInt8) (small : msg.Small)
    (fits : ∀ e ∈ msg.m_KeyValuePair.toList, KeyValuePairMessage.Fits e)
    (msgs : List (Option IMessage)) :
    Tape.Reads At (readNext ids ndebug heap msgs) (frame ids msg) (msgs ++ [some (reply msg)]) := by
  intro s left right hs
  obtain ⟨s1, e1, h1⟩ := streamToMsg_reads ndebug (heap msgs.length) small fits hs
  refine ⟨s1, ?_, h1⟩
  simp only [readNext, e1, Option.bind_eq_bind, Option.bind_some]

/-- The next message fails where a pair does not fit. -/
lemma readNext_fails (heap : Nat → Nat → Nat → UInt8) (small : msg.Small)
    (long : ¬ ∀ e ∈ msg.m_KeyValuePair.toList, KeyValuePairMessage.Fits e)
    (msgs : List (Option IMessage)) :
    Tape.Fails At (readNext ids ndebug heap msgs) (frame ids msg) := by
  intro s left right hs
  push Not at long
  have e1 := streamToMsg_fails ndebug (heap msgs.length) small long hs
  simp only [readNext, e1, Option.bind_eq_bind, Option.bind_none]

variable {msgs : List KeyValuePairMessage}

/-- The replies to a list of messages. -/
def replies (msgs : List KeyValuePairMessage) : List (Option IMessage) :=
  msgs.foldl (fun acc msg => acc ++ [some (reply msg)]) []

/-- Messages are written as their frames one after the other. -/
lemma writeAll_writes (ids : ClassIDs) (ndebug : Bool) (small : ∀ msg ∈ msgs, msg.Small) :
    Tape.Writes At (writeAll ids ndebug msgs) (msgs.flatMap (frame ids)) :=
  Tape.Writes.foldlM fun msg hm => msgToStream_writes ids ndebug (small msg hm)

/-- The calls on a list of messages whose strings all have room. -/
lemma readAll_reads (ndebug : Bool) (heap : Nat → Nat → Nat → UInt8)
    (small : ∀ msg ∈ msgs, msg.Small)
    (fits : ∀ msg ∈ msgs, ∀ e ∈ msg.m_KeyValuePair.toList, KeyValuePairMessage.Fits e) :
    Tape.Reads At (readAll ids ndebug heap msgs.length) (msgs.flatMap (frame ids)) (replies msgs) :=
  Tape.Reads.times
    (fun msg hm acc => readNext_reads heap (small msg hm) (fits msg hm) acc) []

/-- The calls on a list of messages with a string that has not. -/
lemma readAll_fails (ndebug : Bool) (heap : Nat → Nat → Nat → UInt8)
    (small : ∀ msg ∈ msgs, msg.Small)
    (long : ∃ msg ∈ msgs, ¬ ∀ e ∈ msg.m_KeyValuePair.toList, KeyValuePairMessage.Fits e) :
    Tape.Fails At (readAll ids ndebug heap msgs.length) (msgs.flatMap (frame ids)) :=
  Tape.Fails.times
    (fun msg hm fits acc => readNext_reads heap (small msg hm) fits acc)
    (fun msg hm long acc => readNext_fails heap (small msg hm) long acc) long []

/-- With a string of the largest length somewhere, the last call gives nothing. -/
lemma not_inSync (ids : ClassIDs) (ndebug : Bool) (heap : Nat → Nat → Nat → UInt8)
    (small : ∀ msg ∈ msgs, msg.Small) {pMem : Nat} {content : List UInt8}
    (placed : 0 < pMem ∧ pMem + content.length < 2 ^ 64)
    (room : (msgs.flatMap (frame ids)).length ≤ content.length)
    (long : ∃ msg ∈ msgs, ¬ ∀ e ∈ msg.m_KeyValuePair.toList, KeyValuePairMessage.Fits e) :
    ¬ InSync ids ndebug heap msgs (MemoryDataStream.new pMem content placed) := by
  rintro ⟨s1, s2, e1, e2, step⟩
  obtain ⟨t1, e1', h1⟩ := writeAll_writes ids ndebug small (at_new pMem content placed) room
  cases e1'.symm.trans e1
  obtain ⟨t2, e2', h2⟩ := h1.seek_zero ndebug
  cases e2'.symm.trans e2
  have fails := readAll_fails ndebug heap small long h2
  rcases List.eq_nil_or_concat msgs with rfl | ⟨before, msg, rfl⟩
  · simp at long
  · obtain ⟨_, _, _, _, _, _, -, -, -, last, -⟩ := step before msg [] (by simp)
    rw [List.length_concat, last] at fails
    cases fails

/-- Messages written one after the other from the start of a stream with room and read back from there
    stay in step exactly if no string is of the largest length. -/
theorem inSync_iff (ids : ClassIDs) (ndebug : Bool) (heap : Nat → Nat → Nat → UInt8)
    (msgs : List KeyValuePairMessage) (small : ∀ msg ∈ msgs, msg.Small) (pMem : Nat)
    (content : List UInt8) (placed : 0 < pMem ∧ pMem + content.length < 2 ^ 64)
    (room : (msgs.flatMap (frame ids)).length ≤ content.length) :
    InSync ids ndebug heap msgs (MemoryDataStream.new pMem content placed) ↔
      ∀ msg ∈ msgs, ∀ e ∈ msg.m_KeyValuePair.toList, KeyValuePairMessage.Fits e := by
  constructor
  · intro sync
    by_contra long
    refine not_inSync ids ndebug heap small placed room ?_ sync
    push Not at long ⊢
    exact long
  · intro fits
    have start := at_new pMem content placed
    obtain ⟨s1, e1, h1⟩ := writeAll_writes ids ndebug small start room
    obtain ⟨s2, e2, h2⟩ := h1.seek_zero ndebug
    rw [List.nil_append] at h2
    refine ⟨s1, s2, e1, e2, ?_⟩
    rintro before msg after rfl
    have hm : msg ∈ before ++ msg :: after := by simp
    have sub : ∀ m ∈ before ++ [msg], m ∈ before ++ msg :: after := by simp; tauto
    have small' : ∀ m ∈ before, m.Small := fun m h => small m (by simp [h])
    simp only [List.flatMap_append, List.flatMap_cons, List.length_append] at room
    obtain ⟨w, ew, hw⟩ := writeAll_writes ids ndebug small' start (by omega)
    obtain ⟨w', ew', hw'⟩ := msgToStream_writes ids ndebug (small msg hm) hw
      (by rw [List.length_drop]; omega)
    -- the tape behind the writer, cut before and after the frame of `msg`
    have cut : s2.At [] (before.flatMap (frame ids) ++ (frame ids msg ++
        (after.flatMap (frame ids) ++
          content.drop ((before ++ msg :: after).flatMap (frame ids)).length))) := by
      simpa [List.append_assoc] using h2
    have cut' : s2.At [] ((before ++ [msg]).flatMap (frame ids) ++
        (after.flatMap (frame ids) ++
          content.drop ((before ++ msg :: after).flatMap (frame ids)).length)) := by
      simpa [List.append_assoc] using h2
    obtain ⟨r, er, hr⟩ := readAll_reads ndebug heap small' (fun m h => fits m (by simp [h])) cut
    obtain ⟨r', er', hr'⟩ := readAll_reads ndebug heap (fun m h => small m (sub m h))
      (fun m h => fits m (sub m h)) cut'
    rw [List.length_append, List.length_singleton, replies, List.foldl_append] at er'
    refine ⟨w, w', r, r', _, _, ew, ew', er, er', ?_, ?_⟩
    · rw [hr.tell, hw.tell]
    · rw [hr'.tell, hw'.tell]
      simp

/-- The statement above at one message of one pair. -/
theorem inSync_iff_one :
    InSync ⟨.new, .new⟩ false (fun _ _ _ => 0) [KeyValuePairMessage.ofPair [107] [118]]
        (MemoryDataStream.new 16 (List.replicate 32 0) (by decide)) ↔
      ∀ msg ∈ [KeyValuePairMessage.ofPair [107] [118]],
        ∀ e ∈ msg.m_KeyValuePair.toList, KeyValuePairMessage.Fits e :=
  inSync_iff ⟨.new, .new⟩ false (fun _ _ _ => 0) [KeyValuePairMessage.ofPair [107] [118]]
    (fun msg hm => by
      rw [List.mem_singleton.mp hm]
      exact ⟨by decide, by decide⟩)
    16 (List.replicate 32 0) (by decide) (by decide)

section Longest
open KeyValuePairMessage

/-- The pairs of a message with one pair. -/
lemma ofPair_toList (value : ByteString) :
    (ofPair [] value).m_KeyValuePair.toList = [([], value)] := rfl

/-- The number of pairs of a message with one pair. -/
lemma ofPair_size (value : ByteString) : (ofPair [] value).m_KeyValuePair.size = 1 := rfl

/-- The length of the frame of a message with one pair. -/
lemma ofPair_frame (ids : ClassIDs) (value : ByteString) :
    (frame ids (ofPair [] value)).length = 28 + value.length := by
  simp only [frame, encode, ofPair_toList, encodePair, encodeString, List.flatMap_cons,
    List.flatMap_nil, List.length_append, Tape.length_leBytes, UniqueID.size, List.length_nil]
  omega

/-- A value of `2^32 - 1` bytes overruns the buffer that `FromStream` makes for it. -/
theorem longest_value_not_inSync :
    ∃ (value : ByteString) (content : List UInt8) (placed : 0 < 16 ∧ 16 + content.length < 2 ^ 64),
      value.length = 2 ^ 32 - 1 ∧ (ofPair [] value).Small ∧
        ([ofPair [] value].flatMap (frame ⟨.new, .new⟩)).length ≤ content.length ∧
          ¬ InSync ⟨.new, .new⟩ false (fun _ _ _ => 0) [ofPair [] value]
            (MemoryDataStream.new 16 content placed) := by
  have length : (List.replicate (2 ^ 32 - 1) (97 : UInt8)).length = 2 ^ 32 - 1 :=
    List.length_replicate
  have size : (List.replicate (2 ^ 33) (0 : UInt8)).length = 2 ^ 33 := List.length_replicate
  -- nothing but the lengths matters from here on
  generalize List.replicate (2 ^ 32 - 1) (97 : UInt8) = value at length
  generalize List.replicate (2 ^ 33) (0 : UInt8) = content at size
  have placed : 0 < 16 ∧ 16 + content.length < 2 ^ 64 := by omega
  have small : (ofPair [] value).Small := by
    refine ⟨by rw [ofPair_size]; omega, fun e he => ?_⟩
    rw [ofPair_toList, List.mem_singleton] at he
    subst he
    exact ⟨by simp, by change value.length < 2 ^ 32; omega⟩
  have room : ([ofPair [] value].flatMap (frame ⟨.new, .new⟩)).length ≤ content.length := by
    rw [List.flatMap_singleton, ofPair_frame]
    omega
  refine ⟨value, content, placed, length, small, room, ?_⟩
  refine not_inSync _ false _ ?_ placed room ⟨ofPair [] value, by simp, fun fits => ?_⟩
  · simpa using small
  · have fit : value.length < 2 ^ 32 - 1 := (fits ([], value) (by rw [ofPair_toList]; simp)).2
    omega

end Longest
end IMessage
end XLN
