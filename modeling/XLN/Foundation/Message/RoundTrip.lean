import XLN.Foundation.Message.IMessage

/-!
# Messages of any class and any contents

`MsgToStream` takes every message, `StreamToMsg` only makes objects of the classes that registered a
creator. The classes declared by `XLN_DECLARE_BASE_STREMABLE_MSG_CLASS` do, those declared by
`XLN_DECLARE_BASE_MSG_CLASS` do not. Counts and lengths of any size are cut to 32 bits on the way, so
`FromStream` reads as many of the pairs as the cut count says.
-/

namespace XLN
open MemoryDataStream

namespace KeyValuePairMessage
variable {ndebug : Bool} {msg : KeyValuePairMessage}

/-- The pairs that the count in front of them covers. -/
def announced (msg : KeyValuePairMessage) : List (ByteString × ByteString) :=
  msg.sent.take (msg.m_KeyValuePair.size % 2 ^ 32)

/-- So many pairs are announced. -/
lemma length_announced (msg : KeyValuePairMessage) :
    msg.announced.length = msg.m_KeyValuePair.size % 2 ^ 32 := by
  have all : msg.sent.length = msg.m_KeyValuePair.size := by
    rw [sent, List.length_map, Std.ExtTreeMap.length_toList]
  rw [announced, List.length_take, all, Nat.min_eq_left (Nat.mod_le _ _)]

/-- `FromStream` on what `ToStream` has written, with room for the announced strings. -/
lemma fromStream_wire (ndebug : Bool) (heap : Nat → Nat → UInt8) (fits : ∀ e ∈ msg.announced, Fits e)
    (msg0 : KeyValuePairMessage) {s : MemoryDataStream} {left right : List UInt8}
    (hs : s.At left (msg.wire ++ right)) :
    ∃ s', fromStream ndebug heap msg0 s =
      some ((true, ⟨decode msg0.m_KeyValuePair msg.announced⟩), s') := by
  have small : msg.announced.length < 2 ^ 32 := by
    rw [length_announced]
    exact Nat.mod_lt _ (by omega)
  -- the pairs that were written but not announced stay ahead of the cursor
  rw [wire, ← List.take_append_drop (msg.m_KeyValuePair.size % 2 ^ 32) msg.sent, ← announced,
    ← length_announced, List.flatMap_append, ← List.append_assoc, List.append_assoc] at hs
  obtain ⟨s', e, -⟩ := fromStream_reads_pairs ndebug heap small fits msg0 hs
  exact ⟨s', e⟩

end KeyValuePairMessage

namespace IMessage
open KeyValuePairMessage

variable {ids : ClassIDs} {ndebug : Bool} {heap : Nat → Nat → UInt8} {msg : IMessage}
  {stream : MemoryDataStream}

/-- The key/value pairs of a message object. -/
def pairs : IMessage → KeyValuePairMessage
  | keyValuePair msg => msg
  | webView msg _ _ => msg

/-- The number of bytes that `MsgToStream` writes. -/
def wireSize (msg : IMessage) : Nat := 16 + msg.pairs.wire.length

/-- Two objects of one class, with the same web view ID and command if it is `WebViewMessage`. -/
inductive SameClass : IMessage → IMessage → Prop
  | keyValuePair {msg reply} : SameClass (keyValuePair msg) (keyValuePair reply)
  | webView {msg reply m_Command m_WebViewID} :
    SameClass (webView msg m_Command m_WebViewID) (webView reply m_Command m_WebViewID)

/-- `MsgToStream`, `Seek(0)` and `StreamToMsg` all return, the last with an answer of this kind. -/
def Answers (ids : ClassIDs) (ndebug : Bool) (heap : Nat → Nat → UInt8) (stream : MemoryDataStream)
    (msg : IMessage) (P : Option IMessage → Prop) : Prop :=
  ∃ s1 s2 s3 answer, msgToStream ids ndebug msg stream = some s1 ∧ s1.seek ndebug 0 = some s2 ∧
    streamToMsg ids ndebug heap s2 = some (answer, s3) ∧ P answer

/-- The answer is a message of the same class. -/
def RoundTrips (ids : ClassIDs) (ndebug : Bool) (heap : Nat → Nat → UInt8)
    (stream : MemoryDataStream) (msg : IMessage) : Prop :=
  Answers ids ndebug heap stream msg fun answer =>
    ∃ reply, answer = some reply ∧ reply.objClassID ids = msg.objClassID ids ∧ SameClass msg reply

/-- A message is written as its class id and its pairs. -/
lemma msgToStream_writes_wire (ids : ClassIDs) (ndebug : Bool) (msg : IMessage) :
    Tape.Writes At (msgToStream ids ndebug msg) ((msg.objClassID ids).data ++ msg.pairs.wire) := by
  have header := write_writes ndebug (msg.objClassID ids).data
  cases msg with
  | keyValuePair kv => exact header.bind (toStream_writes_wire ndebug kv)
  | webView kv m_Command m_WebViewID => exact header.bind (toStream_writes_wire ndebug kv)

/-- Writing and seeking return, and leave the class ID and the pairs ahead of the cursor. -/
lemma msgToStream_seek (ids : ClassIDs) (ndebug : Bool) (msg : IMessage) {pMem : Nat}
    {content : List UInt8} (placed : 0 < pMem ∧ pMem + content.length < 2 ^ 64)
    (room : msg.wireSize ≤ content.length) :
    ∃ s1 s2 right, msgToStream ids ndebug msg (.new pMem content placed) = some s1 ∧
      s1.seek ndebug 0 = some s2 ∧
        s2.At [] ((msg.objClassID ids).data ++ (msg.pairs.wire ++ right)) := by
  have size : ((msg.objClassID ids).data ++ msg.pairs.wire).length = msg.wireSize := by
    rw [List.length_append, UniqueID.size, wireSize]
  obtain ⟨s1, e1, h1⟩ := msgToStream_writes_wire ids ndebug msg (at_new pMem content placed)
    (by rwa [size])
  obtain ⟨s2, e2, h2⟩ := h1.seek_zero ndebug
  rw [List.nil_append, List.append_assoc] at h2
  exact ⟨s1, s2, _, e1, e2, h2⟩

/-- No creator is registered under the ID of any other class. -/
lemma find_creator_other {id : UniqueID} (other : id ≠ ids.KeyValuePairMessageUID) :
    (getMsgCreator ids).find? (fun e => e.1.data = id.data) = none := by
  have differ : ids.KeyValuePairMessageUID.data ≠ id.data := by
    intro same
    exact other (UniqueID.eq_of_data same).symm
  simp [getMsgCreator, registerMessageCreator, differ]

/-- An object that `StreamToMsg` makes is a `KeyValuePairMessage`. -/
lemma streamToMsg_keyValuePair {s s' : MemoryDataStream} {answer : Option IMessage}
    (e : streamToMsg ids ndebug heap s = some (answer, s')) (reply : IMessage)
    (some_reply : answer = some reply) : ∃ kv, reply = keyValuePair kv := by
  subst some_reply
  simp only [streamToMsg, Option.bind_eq_bind, Option.bind_eq_some_iff] at e
  obtain ⟨⟨bytes, s1⟩, -, e⟩ := e
  split at e
  next id newMessage found =>
    have creator := List.mem_of_find?_eq_some found
    simp only [getMsgCreator, registerMessageCreator, List.find?_nil, Option.isSome_none,
      Bool.false_eq_true, if_false, List.mem_singleton, Prod.mk.injEq] at creator
    obtain ⟨-, rfl⟩ := creator
    simp only [fromStream, Option.bind_eq_bind, Option.bind_eq_some_iff] at e
    obtain ⟨⟨made, s2⟩, ⟨⟨⟨_, kv⟩, s3⟩, -, e3⟩, e⟩ := e
    cases e3
    cases e
    exact ⟨kv, rfl⟩
  next => cases e

/-- A `WebViewMessage` never comes back as one. -/
lemma webView_not_roundTrips (ids : ClassIDs) (ndebug : Bool) (heap : Nat → Nat → UInt8)
    (stream : MemoryDataStream) (kv : KeyValuePairMessage) (m_Command : Command)
    (m_WebViewID : ByteString) :
    ¬ RoundTrips ids ndebug heap stream (webView kv m_Command m_WebViewID) := by
  rintro ⟨s1, s2, s3, answer, -, -, e3, reply, some_reply, -, same⟩
  obtain ⟨kv', rfl⟩ := streamToMsg_keyValuePair e3 reply some_reply
  cases same

/-- A message with pairs that fit comes back. -/
lemma keyValuePair_roundTrips (ids : ClassIDs) (ndebug : Bool) (heap : Nat → Nat → UInt8)
    {kv : KeyValuePairMessage} (fits : ∀ e ∈ kv.announced, Fits e) {pMem : Nat}
    {content : List UInt8} (placed : 0 < pMem ∧ pMem + content.length < 2 ^ 64)
    (room : (keyValuePair kv).wireSize ≤ content.length) :
    RoundTrips ids ndebug heap (.new pMem content placed) (keyValuePair kv) := by
  obtain ⟨s1, s2, right, e1, e2, h2⟩ := msgToStream_seek ids ndebug _ placed room
  obtain ⟨s3, e3, h3⟩ := read_classID ndebug h2
  obtain ⟨s4, e4⟩ := fromStream_wire ndebug heap fits .new h3
  refine ⟨s1, s2, s4, _, e1, e2, ?_,
    keyValuePair ⟨decode KeyValuePairMessage.new.m_KeyValuePair kv.announced⟩, rfl, rfl, .keyValuePair⟩
  simp only [streamToMsg, e3, overwrite_new, objClassID, find_creator, fromStream, e4,
    Option.bind_eq_bind, Option.bind_some]

/-- A message of the other class comes back as nothing. -/
lemma webView_answers_none (ndebug : Bool) (heap : Nat → Nat → UInt8)
    (distinct : ids.WebViewMessageUID ≠ ids.KeyValuePairMessageUID) {kv : KeyValuePairMessage}
    (m_Command : Command) (m_WebViewID : ByteString) {pMem : Nat} {content : List UInt8}
    (placed : 0 < pMem ∧ pMem + content.length < 2 ^ 64)
    (room : (webView kv m_Command m_WebViewID).wireSize ≤ content.length) :
    Answers ids ndebug heap (.new pMem content placed) (webView kv m_Command m_WebViewID)
      (· = none) := by
  obtain ⟨s1, s2, right, e1, e2, h2⟩ := msgToStream_seek ids ndebug _ placed room
  obtain ⟨s3, e3, -⟩ := read_classID ndebug h2
  refine ⟨s1, s2, s3, none, e1, e2, ?_, rfl⟩
  simp only [streamToMsg, e3, overwrite_new, objClassID, find_creator_other distinct,
    Option.bind_eq_bind, Option.bind_some]

/-- A `KeyValuePairMessage` comes back as one, whatever its contents, as long as the announced strings
    have room in their buffers. A `WebViewMessage` is written like one but has no creator, and the
    answer is null. -/
theorem streamToMsg_msgToStream (ids : ClassIDs) (ndebug : Bool) (heap : Nat → Nat → UInt8)
    (kv : KeyValuePairMessage) (pMem : Nat) (content : List UInt8)
    (placed : 0 < pMem ∧ pMem + content.length < 2 ^ 64)
    (room : (keyValuePair kv).wireSize ≤ content.length) :
    ((∀ e ∈ kv.announced, Fits e) →
        RoundTrips ids ndebug heap (.new pMem content placed) (keyValuePair kv)) ∧
      (ids.WebViewMessageUID ≠ ids.KeyValuePairMessageUID → ∀ m_Command m_WebViewID,
        Answers ids ndebug heap (.new pMem content placed) (webView kv m_Command m_WebViewID)
          (· = none)) := by
  constructor
  · intro fits
    exact keyValuePair_roundTrips ids ndebug heap fits placed room
  · intro distinct m_Command m_WebViewID
    exact webView_answers_none ndebug heap distinct m_Command m_WebViewID placed room

/-- The statement above at a message of one pair. -/
theorem streamToMsg_msgToStream_one :
    RoundTrips ⟨.new, ⟨List.replicate 16 1, rfl⟩⟩ false (fun _ _ => 0)
        (.new 16 (List.replicate 64 0) (by decide)) (keyValuePair (ofPair [107] [118])) ∧
      Answers ⟨.new, ⟨List.replicate 16 1, rfl⟩⟩ false (fun _ _ => 0)
        (.new 16 (List.replicate 64 0) (by decide)) (webView (ofPair [107] [118]) .LOAD_URL [49])
          (· = none) := by
  have both := streamToMsg_msgToStream ⟨.new, ⟨List.replicate 16 1, rfl⟩⟩ false (fun _ _ => 0)
    (ofPair [107] [118]) 16 (List.replicate 64 0) (by decide) (by decide)
  exact ⟨both.1 (by decide), both.2 (by decide) .LOAD_URL [49]⟩

/-- A `WebViewMessage` without pairs does not come back. -/
theorem webView_lost :
    (webView .new .LOAD_URL [49]).wireSize ≤ (List.replicate 64 (0 : UInt8)).length ∧
      ¬ RoundTrips ⟨.new, ⟨List.replicate 16 1, rfl⟩⟩ false (fun _ _ => 0)
        (.new 16 (List.replicate 64 0) (by decide)) (webView .new .LOAD_URL [49]) :=
  ⟨by decide, webView_not_roundTrips _ _ _ _ _ _ _⟩

end IMessage
end XLN
