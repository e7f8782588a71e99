import XLN.Platform.JniSignature

/-!
# The interface to Java

`Core/Platform/android/src/main/cpp/Jni.h`: `JniHelper` and what it uses of the `JNIEnv` of a thread. The
functions of `JNIEnv` have rules: a local reference may only be used until it is deleted, an argument list has
to fit the signature of the method, and while an exception is pending nearly nothing may be called. The model
gets stuck where a rule is broken.
-/

namespace XLN

/-- An object that a local reference refers to. A string is known by its modified UTF-8. -/
inductive JObject (κ : Type) where
  | string (utf : ByteString)
  | clazz (cls : κ)

inductive JValue where
  | string (utf : ByteString)
  | int (n : Int32)
  deriving DecidableEq

/-- How a method ends. The string is what a method with a result returns, unless it returns null. -/
inductive JReturn where
  | returns (string : Option ByteString)
  | throws

/-- The classes of type `κ` and the static methods of type `μ` of a virtual machine with states of type `ω`.
    Static initialisers may run when a class is loaded or a method is looked for. -/
structure JavaVM (κ μ ω : Type) where
  loadClass : ByteString → ω → Option κ × ω
  method : κ → ByteString → MethodType → ω → Option μ × ω
  invoke : μ → List JValue → ω → JReturn × ω

/-- `jmethodID`: a method, with the type by which it was found. -/
structure JMethodID (μ : Type) where
  method : μ
  type : MethodType

/-- The local references of a thread with their objects, the newest first, whether an exception is pending,
    and the state of the virtual machine. Numbers of references are not used again. -/
structure JNIEnv (κ ω : Type) where
  locals : List (Nat × JObject κ)
  next : Nat
  exception : Bool
  java : ω

/-- A run of native code. -/
abbrev Jni (κ ω : Type) := StateT (JNIEnv κ ω) Option

/-- A word of an `av_alist`. -/
inductive AvArg where
  | ptr (ref : Nat)
  | int (n : Int32)

namespace JNIEnv

variable {κ μ ω : Type}

def find (env : JNIEnv κ ω) (ref : Nat) : Option (JObject κ) :=
  (env.locals.find? fun x => x.1 = ref).map Prod.snd

/-- A new local reference. -/
def push (obj : JObject κ) (env : JNIEnv κ ω) : JNIEnv κ ω :=
  { env with locals := (env.next, obj) :: env.locals, next := env.next + 1 }

def drop (refs : List Nat) (env : JNIEnv κ ω) : JNIEnv κ ω :=
  { env with locals := env.locals.filter fun x => x.1 ∉ refs }

def newStringUTF (utf : ByteString) : Jni κ ω Nat := fun env =>
  if env.exception then none else some (env.next, env.push (.string (c_str utf)))

def deleteLocalRef (ref : Nat) : Jni κ ω Unit := fun env =>
  (env.find ref).map fun _ => ((), env.drop [ref])

def exceptionClear : Jni κ ω Unit := fun env =>
  some ((), { env with exception := false })

/-- The bytes that `GetStringUTFChars` shows. -/
def getStringUTFChars (ref : Nat) : Jni κ ω ByteString := fun env =>
  if env.exception then none else
  match env.find ref with
  | some (.string utf) => some (utf, env)
  | _ => none

/-- `CallObjectMethod` with `loadClass`; the result is null if it throws. -/
def callLoadClass (vm : JavaVM κ μ ω) (className : Nat) : Jni κ ω (Option Nat) := fun env =>
  if env.exception then none else
  match env.find className with
  | some (.string utf) =>
    match vm.loadClass utf env.java with
    | (some cls, java) => some (some env.next, { env with java }.push (.clazz cls))
    | (none, java) => some (none, { env with java, exception := true })
  | _ => none

/-- An error is pending if there is no such method. -/
def getStaticMethodID (vm : JavaVM κ μ ω) (classID : Nat) (name sig : ByteString) :
    Jni κ ω (Option (JMethodID μ)) := fun env =>
  if env.exception then none else
  match env.find classID with
  | some (.clazz cls) =>
    match MethodType.ofSignature sig with
    | some type =>
      match vm.method cls name type env.java with
      | (some method, java) => some (some { method, type }, { env with java })
      | (none, java) => some (none, { env with java, exception := true })
    | none => some (none, { env with exception := true })
  | _ => none

/-- The arguments that a method with these types takes from the list. -/
def readArgs (env : JNIEnv κ ω) : List JType → List AvArg → Option (List JValue)
  | [], _ => some []
  | .object tag :: types, .ptr ref :: alist =>
    match env.find ref with
    | some (.string utf) =>
      if tag = StringTag ∨ tag = ObjectTag then (env.readArgs types alist).map (.string utf :: ·) else none
    | _ => none
  | .jint :: types, .int n :: alist => (env.readArgs types alist).map (.int n :: ·)
  | _, _ => none

/-- `CallStaticVoidMethodV` and `CallStaticObjectMethodV`, for the kind of result that they are for. -/
def callStaticMethodV (vm : JavaVM κ μ ω) (isVoid : Bool) (classID : Nat) (methodID : JMethodID μ)
    (alist : List AvArg) : Jni κ ω (Option Nat) := fun env =>
  if env.exception ∨ methodID.type.result.isNone ≠ isVoid then none else
  match env.find classID, env.readArgs methodID.type.args alist with
  | some (.clazz _), some args =>
    match vm.invoke methodID.method args env.java with
    | (.returns (some utf), java) =>
      if isVoid then some (none, { env with java })
      else some (some env.next, { env with java }.push (.string utf))
    | (.returns none, java) => some (none, { env with java })
    | (.throws, java) => some (none, { env with java, exception := true })
  | _, _ => none

end JNIEnv

namespace JniHelper
open JNIEnv

variable {κ μ ω : Type}

def javaString2String (str : Nat) : Jni κ ω ByteString := do
  let utf8string ← getStringUTFChars str
  return c_str utf8string

def getClassID (vm : JavaVM κ μ ω) (className : ByteString) : Jni κ ω (Option Nat) := do
  let _jstrClassName ← newStringUTF className
  let _clazz ← callLoadClass vm _jstrClassName
  if _clazz.isNone then exceptionClear
  deleteLocalRef _jstrClassName
  return _clazz

def getStaticMethodInfo (vm : JavaVM κ μ ω) (className methodName paramCode : ByteString) :
    Jni κ ω (Option (Nat × JMethodID μ)) := do
  match ← getClassID vm className with
  | none =>
    exceptionClear
    return none
  | some classID =>
    match ← getStaticMethodID vm classID methodName paramCode with
    | none =>
      -- the reference to the class stays
      exceptionClear
      return none
    | some methodID => return some (classID, methodID)

end JniHelper

/-! ## References -/

namespace JNIEnv

variable {κ μ ω : Type} {env env' : JNIEnv κ ω} {obj : JObject κ} {ref : Nat}

/-- The references are numbered. -/
structure Sane (env : JNIEnv κ ω) : Prop where
  below : ∀ x ∈ env.locals, x.1 < env.next
  apart : env.locals.Pairwise fun x y => x.1 ≠ y.1

/-- A new reference keeps the references numbered. -/
lemma Sane.push (sane : env.Sane) (obj : JObject κ) : (env.push obj).Sane where
  below x mem := by
    rcases List.mem_cons.mp mem with rfl | mem
    · exact Nat.lt_succ_self _
    · exact Nat.lt_succ_of_lt (sane.below x mem)
  apart := List.pairwise_cons.mpr ⟨fun x mem => (sane.below x mem).ne', sane.apart⟩

/-- Deleting references keeps them numbered. -/
lemma Sane.drop (sane : env.Sane) (refs : List Nat) : (env.drop refs).Sane where
  below x mem := sane.below x (List.mem_of_mem_filter mem)
  apart := sane.apart.filter _

/-- Fewer references are numbered too. -/
lemma Sane.sublist (sane : env.Sane) {locals : List (Nat × JObject κ)} (sub : locals.Sublist env.locals) :
    Sane { env with locals } where
  below x mem := sane.below x (sub.subset mem)
  apart := sane.apart.sublist sub

/-- A reference has one object. -/
lemma Sane.find (sane : env.Sane) (mem : (ref, obj) ∈ env.locals) : env.find ref = some obj := by
  obtain ⟨before, after, e⟩ := List.append_of_mem mem
  have apart := sane.apart
  rw [e, List.pairwise_append] at apart
  have other : ∀ x ∈ before, ¬ (decide (x.1 = ref)) = true := fun x mem => by
    rw [decide_eq_true_eq]
    exact apart.2.2 x mem (ref, obj) List.mem_cons_self
  rw [JNIEnv.find, e, List.find?_append, List.find?_eq_none.mpr other, Option.none_or, List.find?_cons_of_pos,
    Option.map_some]
  exact decide_eq_true rfl

/-- The newest reference is found. -/
lemma find_push : (env.push obj).find env.next = some obj := by
  rw [JNIEnv.find, push, List.find?_cons_of_pos, Option.map_some]
  exact decide_eq_true rfl

/-- What runs first. -/
lemma run_bind {α β : Type} {x : Jni κ ω α} {f : α → Jni κ ω β} {a : α} (e : x env = some (a, env')) :
    (x >>= f) env = f a env' := by
  change (x env).bind _ = _
  rw [e]
  rfl

/-- `NewStringUTF` makes a reference while no exception is pending. -/
lemma newStringUTF_eq (calm : env.exception = false) (utf : ByteString) :
    newStringUTF utf env = some (env.next, env.push (.string (c_str utf))) := by
  rw [newStringUTF, calm]
  rfl

/-- A reference that is there can be deleted. -/
lemma deleteLocalRef_eq (sane : env.Sane) (mem : (ref, obj) ∈ env.locals) :
    deleteLocalRef ref env = some ((), env.drop [ref]) := by
  rw [deleteLocalRef, sane.find mem]
  rfl

end JNIEnv

namespace JniHelper
open JNIEnv

variable {κ μ ω : Type} {vm : JavaVM κ μ ω} {env env' : JNIEnv κ ω}

/-- The reference to the name is deleted, whether the class is found or not. -/
lemma getClassID_eq (vm : JavaVM κ μ ω) (sane : env.Sane) (calm : env.exception = false)
    (className : ByteString) :
    getClassID vm className env =
      match vm.loadClass (c_str className) env.java with
      | (none, java) => some (none, { env with next := env.next + 1, java })
      | (some cls, java) =>
        some (some (env.next + 1), { env with
          locals := (env.next + 1, .clazz cls) :: env.locals, next := env.next + 2, java }) := by
  have stay : env.locals.filter (fun x => x.1 ∉ [env.next]) = env.locals :=
    List.filter_eq_self.mpr fun x mem => by simpa using (sane.below x mem).ne
  have pushed := sane.push (.string (c_str className))
  rw [getClassID, run_bind (newStringUTF_eq calm className)]
  cases loaded : vm.loadClass (c_str className) env.java with
  | mk cls java =>
    cases cls with
    | none =>
      have called : callLoadClass vm env.next (env.push (.string (c_str className))) =
          some (none, { env.push (.string (c_str className)) with java, exception := true }) := by
        rw [callLoadClass, if_neg (by rw [push, calm]; nofun), find_push]
        dsimp only
        rw [push, loaded]
      have cleared : Sane { env.push (.string (c_str className)) with java, exception := false } :=
        ⟨pushed.below, pushed.apart⟩
      rw [run_bind called, if_pos Option.isNone_none, run_bind (a := ()) rfl]
      refine (run_bind (deleteLocalRef_eq cleared List.mem_cons_self)).trans ?_
      change some _ = some _
      rw [drop, push, List.filter_cons_of_neg (by simp), stay, calm]
    | some cls =>
      have called : callLoadClass vm env.next (env.push (.string (c_str className))) =
          some (some (env.next + 1),
            { env.push (.string (c_str className)) with java }.push (.clazz cls)) := by
        rw [callLoadClass, if_neg (by rw [push, calm]; nofun), find_push]
        dsimp only
        rw [push, loaded]
      have loading : Sane { env.push (.string (c_str className)) with java } := ⟨pushed.below, pushed.apart⟩
      have both := loading.push (.clazz cls)
      rw [run_bind called, if_neg nofun]
      refine (run_bind (deleteLocalRef_eq both (List.mem_cons_of_mem _ List.mem_cons_self))).trans ?_
      change some _ = some _
      rw [drop, push, push, List.filter_cons_of_pos (by simp), List.filter_cons_of_neg (by simp), stay]

/-- The environment after a class was found. -/
def withClass (cls : κ) (java : ω) (env : JNIEnv κ ω) : JNIEnv κ ω :=
  { env with locals := (env.next + 1, .clazz cls) :: env.locals, next := env.next + 2, java }

/-- The references are numbered after a class was found. -/
lemma sane_withClass (sane : env.Sane) (cls : κ) (java : ω) : (withClass cls java env).Sane where
  below x mem := by
    rcases List.mem_cons.mp mem with rfl | mem
    · exact Nat.lt_succ_self _
    · exact Nat.lt_add_right 2 (sane.below x mem)
  apart := List.pairwise_cons.mpr ⟨fun x mem => (Nat.lt_succ_of_lt (sane.below x mem)).ne', sane.apart⟩

/-- A static method is found by its name and type, or the class stays without it. -/
lemma getStaticMethodInfo_eq (vm : JavaVM κ μ ω) (sane : env.Sane) (calm : env.exception = false)
    (className methodName : ByteString) (type : MethodType) :
    getStaticMethodInfo vm className methodName type.signature env =
      match vm.loadClass (c_str className) env.java with
      | (none, java) => some (none, { env with next := env.next + 1, java })
      | (some cls, java) =>
        match vm.method cls methodName type java with
        | (none, java) => some (none, withClass cls java env)
        | (some method, java) =>
          some (some (env.next + 1, { method, type }), withClass cls java env) := by
  have found := getClassID_eq vm sane calm className
  rw [getStaticMethodInfo]
  cases loaded : vm.loadClass (c_str className) env.java with
  | mk cls java =>
    rw [loaded] at found
    cases cls with
    | none =>
      rw [run_bind found]
      change some _ = some _
      rw [calm]
    | some cls =>
      have same : (withClass cls java env).find (env.next + 1) = some (.clazz cls) :=
        (sane_withClass sane cls java).find List.mem_cons_self
      have looked : getStaticMethodID vm (env.next + 1) methodName type.signature (withClass cls java env) =
          match vm.method cls methodName type java with
          | (none, java) => some (none, { withClass cls java env with exception := true })
          | (some method, java) => some (some { method, type }, withClass cls java env) := by
        rw [getStaticMethodID, if_neg (by rw [withClass, calm]; nofun), same]
        dsimp only
        rw [(MethodType.ofSignature_iff _ type).mpr rfl]
        change (match vm.method cls methodName type java with | (some _, _) => _ | (none, _) => _) = _
        cases vm.method cls methodName type java with
        | mk method java => cases method <;> rfl
      rw [run_bind found]
      dsimp only
      cases asked : vm.method cls methodName type java with
      | mk method java' =>
        rw [asked] at looked
        cases method with
        | none =>
          refine (run_bind looked).trans ?_
          change some (none, { withClass cls java' env with exception := false }) = _
          rw [← calm]
          rfl
        | some method => exact run_bind looked

end JniHelper

end XLN
