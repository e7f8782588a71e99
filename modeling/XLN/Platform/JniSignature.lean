import XLN.Lib.Reading
import XLN.Utility.Base64

/-!
# Signatures of Java methods

`Core/Platform/android/src/main/cpp/JniSignature.h` and `JniObject.h`: `TypeSignature` makes the text by which
Java finds a method. The types of the arguments stand one after the other with nothing between them, and
still the text tells them apart: Java reads back the type it was made from (`ofSignature_iff`).
-/

namespace XLN
open Reading

/-- The tag of an `Object`, with the literal that `Name` returns; a name of a class has no semicolon. -/
structure Tag where
  name : ByteString
  no_semicolon : 59 ∉ name
  no_zero : 0 ∉ name
  deriving DecidableEq

/-- `ObjectTag`. -/
def ObjectTag : Tag where
  name := ascii "java/lang/Object"
  no_semicolon := by decide
  no_zero := by decide

/-- `StringTag`. -/
def StringTag : Tag where
  name := ascii "java/lang/String"
  no_semicolon := by decide
  no_zero := by decide

/-- The types that `TypeSignature` knows, without `void`. -/
inductive JType where
  | jboolean
  | jbyte
  | jchar
  | jshort
  | jint
  | jlong
  | jfloat
  | jdouble
  | object (tag : Tag)
  deriving DecidableEq

/-- `R (Args...)`; a method without a result is `void`. -/
structure MethodType where
  args : List JType
  result : Option JType
  deriving DecidableEq

/-- `TypeSignature` of a value. -/
def JType.signature : JType → ByteString
  | jboolean => ascii "Z"
  | jbyte => ascii "B"
  | jchar => ascii "C"
  | jshort => ascii "S"
  | jint => ascii "I"
  | jlong => ascii "J"
  | jfloat => ascii "F"
  | jdouble => ascii "D"
  | object tag => ascii "L" ++ tag.name ++ ascii ";"

/-- `TypeSignature` of a result. -/
def resultSignature : Option JType → ByteString
  | none => ascii "V"
  | some t => t.signature

namespace MethodType

/-- `TypeSignature<R (Args...)>::Compute`. -/
def signature (t : MethodType) : ByteString :=
  t.args.foldl (fun result arg => result ++ arg.signature) (ascii "(") ++ ascii ")" ++
    resultSignature t.result

end MethodType

/-! ## What Java reads -/

/-- The type of a letter. -/
def JType.ofLetter : UInt8 → Option JType
  | 90 => some .jboolean
  | 66 => some .jbyte
  | 67 => some .jchar
  | 83 => some .jshort
  | 73 => some .jint
  | 74 => some .jlong
  | 70 => some .jfloat
  | 68 => some .jdouble
  | _ => none

/-- A class, after its letter. -/
def Tag.read (text : ByteString) : Option (Tag × ByteString) :=
  (word 59 text).bind fun (name, rest) =>
    if plain : 59 ∉ name ∧ 0 ∉ name then some (⟨name, plain.1, plain.2⟩, rest) else none

def JType.read : ByteString → Option (JType × ByteString)
  | [] => none
  | c :: rest =>
    if c = 76 then (Tag.read rest).map fun (tag, rest) => (.object tag, rest)
    else (ofLetter c).map fun t => (t, rest)

def readResult (text : ByteString) : Option (Option JType) :=
  if text = [86] then some none
  else (JType.read text).bind fun (t, rest) => if rest = [] then some (some t) else none

/-- The type of a method from its signature. -/
def MethodType.ofSignature : ByteString → Option MethodType
  | [] => none
  | c :: text =>
    if c = 40 then
      (list JType.read 41 (text.length + 1) text).bind fun (args, rest) =>
        (readResult rest).map fun result => { args, result }
    else none

/-- A letter has one type, and a class none. -/
lemma JType.ofLetter_iff {c : UInt8} {t : JType} :
    ofLetter c = some t ↔ (∀ tag, t ≠ .object tag) ∧ t.signature = [c] := by
  constructor
  · intro e
    unfold ofLetter at e
    split at e <;> cases e <;> exact ⟨nofun, by decide⟩
  · rintro ⟨letter, e⟩
    cases t with
    | object tag => exact absurd rfl (letter tag)
    | _ =>
      cases e
      rfl

/-- A tag is read up to its semicolon. -/
lemma Tag.reads : Reads (fun tag : Tag => tag.name ++ [59]) Tag.read := by
  intro text tag rest
  rw [Tag.read, Option.bind_eq_some_iff, List.append_assoc, List.singleton_append]
  constructor
  · rintro ⟨⟨name, rest'⟩, cut, e⟩
    obtain ⟨-, rfl⟩ := word_iff.mp cut
    dsimp only at e
    split at e
    · cases e
      rfl
    · cases e
  · rintro rfl
    exact ⟨(tag.name, rest), word_iff.mpr ⟨tag.no_semicolon, rfl⟩,
      dif_pos ⟨tag.no_semicolon, tag.no_zero⟩⟩

/-- The signature of an object type begins with an `L`. -/
lemma JType.signature_object (tag : Tag) : (object tag).signature = 76 :: (tag.name ++ [59]) := rfl

/-- A type is read from its signature. -/
lemma JType.reads : Reads signature read := by
  intro text t rest
  cases text with
  | nil =>
    refine ⟨nofun, fun e => ?_⟩
    cases t <;> exact absurd e (by simp [signature, ascii])
  | cons c text =>
    rw [read]
    by_cases cls : c = 76
    · rw [if_pos cls, cls]
      constructor
      · intro e
        obtain ⟨⟨tag, rest'⟩, taken, e⟩ := Option.map_eq_some_iff.mp e
        cases e
        rw [(Tag.reads _ _ _).mp taken]
        rfl
      · intro e
        cases t with
        | object tag =>
          have text_eq := List.cons.inj e
          exact Option.map_eq_some_iff.mpr ⟨(tag, rest), (Tag.reads _ _ _).mpr text_eq.2, rfl⟩
        | _ => exact absurd (List.cons.inj e).1 (by decide)
    · rw [if_neg cls]
      constructor
      · intro e
        obtain ⟨t', letter, e⟩ := Option.map_eq_some_iff.mp e
        cases e
        rw [(ofLetter_iff.mp letter).2]
        rfl
      · intro e
        have other : ∀ tag, t ≠ .object tag := by
          rintro tag rfl
          exact cls (List.cons.inj e).1
        obtain ⟨letter, sig⟩ : ∃ l, t.signature = [l] := by
          cases t with
          | object tag => exact absurd rfl (other tag)
          | _ => exact ⟨_, rfl⟩
        rw [sig] at e
        cases e
        exact Option.map_eq_some_iff.mpr ⟨t, ofLetter_iff.mpr ⟨other, sig⟩, rfl⟩

/-- No signature of an argument starts with the closing parenthesis. -/
lemma JType.head_signature (t : JType) : t.signature.head? ≠ some 41 := by
  cases t <;> exact nofun

/-- No type has an empty signature. -/
lemma JType.signature_ne_nil (t : JType) : t.signature ≠ [] := by
  cases t <;> exact nofun

/-- A result is read from the whole of its signature. -/
lemma readResult_iff {text : ByteString} {result : Option JType} :
    readResult text = some result ↔ text = resultSignature result := by
  unfold readResult
  by_cases void : text = [86]
  · rw [if_pos void, void]
    constructor
    · intro e
      cases e
      rfl
    · intro e
      cases result with
      | none => rfl
      | some t => cases t <;> exact absurd e (by simp [resultSignature, JType.signature, ascii])
  · rw [if_neg void, Option.bind_eq_some_iff]
    constructor
    · rintro ⟨⟨t, rest⟩, taken, e⟩
      dsimp only at e
      split at e
      next none =>
        cases e
        rw [(JType.reads _ _ _).mp taken, none, List.append_nil]
        rfl
      next => cases e
    · rintro rfl
      cases result with
      | none => exact absurd rfl void
      | some t =>
        have taken := JType.reads.append t []
        rw [List.append_nil] at taken
        exact ⟨(t, []), taken, rfl⟩

namespace MethodType

/-- The arguments stand between brackets, the result behind them. -/
lemma signature_eq (t : MethodType) :
    t.signature = 40 :: (t.args.flatMap JType.signature ++ 41 :: resultSignature t.result) := by
  have loop : ∀ (args : List JType) (result : ByteString),
      args.foldl (fun result arg => result ++ arg.signature) result =
        result ++ args.flatMap JType.signature := by
    intro args
    induction args with
    | nil => exact fun result => (List.append_nil result).symm
    | cons arg args ih =>
      intro result
      rw [List.foldl_cons, ih, List.flatMap_cons, List.append_assoc]
  rw [signature, loop, List.append_assoc, List.append_assoc]
  rfl

/-- No byte of a signature is zero, so a C string shows all of it. -/
lemma zero_not_mem_signature (t : MethodType) : 0 ∉ t.signature := by
  have value (t : JType) : 0 ∉ t.signature := by
    cases t with
    | object tag =>
      rw [JType.signature_object, List.mem_cons, List.mem_append, List.mem_singleton]
      rintro (e | mem | e)
      · cases e
      · exact tag.no_zero mem
      · cases e
    | _ => exact nofun
  have result : 0 ∉ resultSignature t.result := by
    cases t.result with
    | none => exact nofun
    | some t => exact value t
  rw [signature_eq, List.mem_cons, List.mem_append, List.mem_cons, List.mem_flatMap]
  rintro (e | ⟨arg, -, mem⟩ | e | mem)
  · cases e
  · exact value arg mem
  · cases e
  · exact result mem

/-- Java reads a type from a text if and only if the text is the signature of the type. -/
theorem ofSignature_iff (text : ByteString) (t : MethodType) :
    ofSignature text = some t ↔ t.signature = text := by
  rw [signature_eq]
  cases text with
  | nil => exact ⟨nofun, nofun⟩
  | cons c text =>
    rw [ofSignature, List.cons.injEq]
    by_cases opened : c = 40
    · rw [if_pos opened, Option.bind_eq_some_iff, and_iff_right opened.symm]
      constructor
      · rintro ⟨⟨args, rest⟩, taken, e⟩
        obtain ⟨result, last, e⟩ := Option.map_eq_some_iff.mp e
        cases e
        obtain ⟨-, rfl⟩ := (list_iff JType.reads JType.signature_ne_nil (Nat.lt_succ_self _)).mp taken
        rw [readResult_iff.mp last]
      · rintro rfl
        refine ⟨(t.args, resultSignature t.result), ?_,
          Option.map_eq_some_iff.mpr ⟨_, readResult_iff.mpr rfl, rfl⟩⟩
        exact (list_iff JType.reads JType.signature_ne_nil (Nat.lt_succ_self _)).mpr
          ⟨fun arg _ => arg.head_signature, rfl⟩
    · rw [if_neg opened]
      exact ⟨nofun, fun e => absurd e.1.symm opened⟩

end MethodType
end XLN
