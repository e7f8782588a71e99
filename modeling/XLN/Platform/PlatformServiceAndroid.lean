import XLN.Lib.Transition
import XLN.Platform.Jni

/-!
# Calls of Java methods

`Core/Platform/PlatformService.h` and `Core/Platform/android/src/main/cpp/PlatformServiceAndroid.cpp`:
`CallPlatformMethod` puts a signature and the arguments together, finds the Java method, and calls it with an
argument list that is made while the program runs.

A call does what it stands for, to find a static method by name and type and call it, with an argument list
that fits (`answers_of_run`). No rule of `JNIEnv` is broken as long as no method throws before the last call
(`completes_iff`), and which objects keep their references is told exactly (`locals_of_run`).
-/

namespace XLN
open Transition

/-- `folly::dynamic`, as far as it is used. -/
inductive Dynamic where
  | null
  | string (s : ByteString)
  | int (n : Int64)
  | other
  deriving DecidableEq

namespace PlatformServiceAndroid
open JNIEnv JniHelper

variable {κ μ ω : Type}

/-- `boost::replace_all` of `::` by `/`. -/
def replaceAll : ByteString → ByteString
  | 58 :: 58 :: rest => 47 :: replaceAll rest
  | c :: rest => c :: replaceAll rest
  | [] => []

/-- The loop over the arguments, with the list and `recycleList`. -/
def pushArgs : List Dynamic → Jni κ ω (List AvArg × List Nat)
  | [] => return ([], [])
  | .string s :: object => do
    let jStr ← newStringUTF (c_str s)
    let (alist, recycleList) ← pushArgs object
    return (.ptr jStr :: alist, jStr :: recycleList)
  | .int n :: object => do
    let (alist, recycleList) ← pushArgs object
    return (.int n.toInt32 :: alist, recycleList)
  | _ :: object => pushArgs object

/-- `av_call`; the list is not started for other results. -/
def avCall (vm : JavaVM κ μ ω) (ret : Dynamic) (classID : Nat) (methodID : JMethodID μ) (alist : List AvArg) :
    Jni κ ω (Option Nat) :=
  match ret with
  | .null => callStaticMethodV vm true classID methodID alist
  | .string _ => callStaticMethodV vm false classID methodID alist
  | _ => fun _ => none

/-- `if (start_ret)`. -/
def readRet (ret : Dynamic) : Option Nat → Jni κ ω Dynamic
  | some start_ret =>
    match ret with
    | .string _ => do
      let cStr ← javaString2String start_ret
      return .string (c_str cStr)
    | _ => return ret
  | none => return ret

def callPlatformMethodImpl (vm : JavaVM κ μ ω) (className method signature : ByteString) (ret : Dynamic)
    (object : List Dynamic) : Jni κ ω Dynamic := do
  let jClassName := replaceAll className
  let jMethodName := method.takeWhile (· ≠ 58)
  match ← getStaticMethodInfo vm (c_str jClassName) (c_str jMethodName) (c_str signature) with
  | none => return ret
  | some (classID, methodID) =>
    let (alist, recycleList) ← pushArgs object
    let start_ret ← avCall vm ret classID methodID alist
    let ret ← readRet ret start_ret
    recycleList.forM deleteLocalRef
    deleteLocalRef classID
    return ret

/-- `CallPlatformMethod<String>` or `CallPlatformMethodVoid` with its arguments, which are strings. -/
structure Request where
  className : ByteString
  method : ByteString
  args : List ByteString
  isVoid : Bool

/-- `TypeSignature` of the result. -/
def Request.result (r : Request) : Option JType :=
  if r.isVoid then none else some (.object StringTag)

/-- `GetSignatureBegin`, `GetSignatureValue`, `GetSignatureEnd` and `GetSignatureValueReturn`. -/
def Request.signature (r : Request) : ByteString :=
  let sig := [] ++ ascii "("
  let sig := r.args.foldl (fun sig _ => sig ++ (JType.object StringTag).signature) sig
  sig ++ ascii ")" ++ resultSignature r.result

/-- What `GetSignatureValueReturn` puts into `ret`. -/
def Request.ret (r : Request) : Dynamic :=
  if r.isVoid then .null else .string []

/-- `CallPlatformMethod` and `CallPlatformMethodVoid`. -/
def callPlatformMethod (vm : JavaVM κ μ ω) (r : Request) : Jni κ ω Dynamic :=
  callPlatformMethodImpl vm r.className r.method r.signature r.ret (r.args.map .string)

def getCarrierName (vm : JavaVM κ μ ω) : Jni κ ω Dynamic :=
  callPlatformMethod vm ⟨ascii "com/lgengine/Platform", ascii "getCarrierName", [], false⟩

def getNetworkType (vm : JavaVM κ μ ω) : Jni κ ω Dynamic :=
  callPlatformMethod vm ⟨ascii "com/lgengine/Platform", ascii "getNetworkType", [], false⟩

/-! ## What a call stands for -/

/-- How a call ends. -/
inductive Ending (κ : Type) where
  | noClass
  | noMethod (cls : κ)
  | returned (string : Option ByteString)
  | threw
  deriving DecidableEq

/-- The type of the Java method. -/
def Request.type (r : Request) : MethodType :=
  { args := List.replicate r.args.length (.object StringTag), result := r.result }

/-- The method gets the arguments. -/
def Request.outcome (vm : JavaVM κ μ ω) (r : Request) (method : μ) (java : ω) : Ending κ × ω :=
  match vm.invoke method (r.args.map fun s => .string (c_str s)) java with
  | (.returns string, java) => (.returned string, java)
  | (.throws, java) => (.threw, java)

/-- A static method is found by its name and type, and called. -/
def Request.meaning (vm : JavaVM κ μ ω) (r : Request) (java : ω) : Ending κ × ω :=
  match vm.loadClass (c_str (replaceAll r.className)) java with
  | (none, java) => (.noClass, java)
  | (some cls, java) =>
    match vm.method cls (c_str (r.method.takeWhile (· ≠ 58))) r.type java with
    | (none, java) => (.noMethod cls, java)
    | (some method, java) => r.outcome vm method java

/-- What the caller gets. -/
def Request.answer (r : Request) : Ending κ → Dynamic
  | .returned (some utf) => if r.isVoid then .null else .string (c_str utf)
  | _ => r.ret

/-- The objects with references that are not deleted: the class whose method is not found, and the string
    that was returned. -/
def Request.leaves (r : Request) : Ending κ → List (JObject κ)
  | .noMethod cls => [.clazz cls]
  | .returned (some utf) => if r.isVoid then [] else [.string utf]
  | _ => []

/-- How calls one after the other end. -/
def meanings (vm : JavaVM κ μ ω) (l : List Request) (java : ω) : List (Ending κ) × ω :=
  l.foldl (fun (endings, java) r =>
    let (ending, java) := r.meaning vm java
    (endings ++ [ending], java)) ([], java)

/-- A thread with what its calls have returned. -/
structure Session (κ ω : Type) where
  env : JNIEnv κ ω
  answers : List Dynamic

def Session.step (vm : JavaVM κ μ ω) (s : Session κ ω) (r : Request) : Option (Session κ ω) :=
  (callPlatformMethod vm r s.env).map fun (answer, env) => { env, answers := s.answers ++ [answer] }

variable {vm : JavaVM κ μ ω} {env env' : JNIEnv κ ω}

/-! ## One call -/

/-- The references to the arguments are the newest ones, and the method reads the arguments from them. -/
structure Pushed (args : List ByteString) (env env' : JNIEnv κ ω) (news : List (Nat × JObject κ)) : Prop where
  eq : env' = { env with locals := news ++ env.locals, next := env.next + args.length }
  sane : env'.Sane
  keys : ∀ ref, ref ∈ List.range' env.next args.length ↔ ref ∈ news.map Prod.fst
  read : env'.readArgs (List.replicate args.length (.object StringTag))
    ((List.range' env.next args.length).map .ptr) = some (args.map fun s => .string (c_str s))

/-- The loop over the arguments makes a reference for each. -/
lemma pushArgs_pushed (sane : env.Sane) (calm : env.exception = false) (args : List ByteString) :
    ∃ env' news, Pushed args env env' news ∧ pushArgs (args.map .string) env =
      some (((List.range' env.next args.length).map .ptr, List.range' env.next args.length), env') := by
  induction args generalizing env with
  | nil => exact ⟨env, [], ⟨rfl, sane, fun ref => by simp, rfl⟩, rfl⟩
  | cons s args ih =>
    have cut : c_str (c_str s) = c_str s := c_str_eq_self (zero_not_mem_c_str s)
    have made := newStringUTF_eq calm (c_str s)
    rw [cut] at made
    obtain ⟨env', news, pushed, more⟩ := ih (sane.push (.string (c_str s))) calm
    have locals : env'.locals = news ++ (env.next, .string (c_str s)) :: env.locals := by
      rw [pushed.eq]
      rfl
    refine ⟨env', news ++ [(env.next, .string (c_str s))], ?_, ?_⟩
    · constructor
      · rw [pushed.eq, List.append_assoc, List.length_cons]
        simp only [push, List.singleton_append, Nat.add_assoc, Nat.add_comm 1]
      · exact pushed.sane
      · intro ref
        rw [List.length_cons, List.range'_succ, List.mem_cons, List.map_append, List.mem_append, or_comm]
        exact or_congr (pushed.keys ref) (by simp)
      · rw [List.length_cons, List.range'_succ, List.replicate_succ, List.map_cons, readArgs,
          pushed.sane.find (by rw [locals]; exact List.mem_append_right _ List.mem_cons_self)]
        dsimp only
        rw [if_pos (.inl rfl)]
        exact congrArg (Option.map _) pushed.read
    · rw [List.map_cons, pushArgs, run_bind made, run_bind more, List.length_cons, List.range'_succ]
      rfl

/-- Deleting references that are there succeeds. -/
lemma forM_deleteLocalRef (sane : env.Sane) {refs : List Nat} (nodup : refs.Nodup)
    (live : ∀ ref ∈ refs, ref ∈ env.locals.map Prod.fst) :
    refs.forM deleteLocalRef env = some ((), env.drop refs) := by
  induction refs generalizing env with
  | nil =>
    have all : env.drop [] = env := by
      rw [drop, List.filter_eq_self.mpr fun x _ => by simp]
    rw [all]
    rfl
  | cons ref refs ih =>
    obtain ⟨⟨ref, obj⟩, mem, rfl⟩ := List.mem_map.mp (live _ List.mem_cons_self)
    obtain ⟨absent, others⟩ := List.nodup_cons.mp nodup
    refine (run_bind (deleteLocalRef_eq sane mem)).trans ?_
    refine (ih (sane.drop _) others fun ref' mem' => ?_).trans ?_
    · obtain ⟨x, held, rfl⟩ := List.mem_map.mp (live ref' (List.mem_cons_of_mem _ mem'))
      refine List.mem_map.mpr ⟨x, List.mem_filter.mpr ⟨held, ?_⟩, rfl⟩
      rw [decide_eq_true_eq, List.mem_singleton]
      rintro rfl
      exact absent mem'
    · rw [drop, drop, drop, List.filter_filter]
      simp [not_or, Bool.and_comm]

/-- The end of a call: the arguments and the class are deleted, what has come since then stays. -/
lemma recycle_eq {kept news old : List (Nat × JObject κ)} {classID : Nat} {obj : JObject κ} {refs : List Nat}
    (sane : env.Sane) (locals : env.locals = kept ++ (news ++ (classID, obj) :: old)) (nodup : refs.Nodup)
    (keys : ∀ ref, ref ∈ refs ↔ ref ∈ news.map Prod.fst) (ret : Dynamic) :
    (do refs.forM deleteLocalRef; deleteLocalRef classID; return ret : Jni κ ω Dynamic) env =
      some (ret, { env with locals := kept ++ old }) := by
  have apart := sane.apart
  rw [locals, List.pairwise_append, List.pairwise_append, List.pairwise_cons] at apart
  obtain ⟨-, ⟨-, ⟨after, -⟩, before⟩, newer⟩ := apart
  have new_stay {l : List (Nat × JObject κ)} (other : ∀ x ∈ l, ∀ y ∈ news, x.1 ≠ y.1) :
      l.filter (fun x => x.1 ∉ refs) = l := by
    refine List.filter_eq_self.mpr fun x mem => ?_
    rw [decide_eq_true_eq, keys]
    intro here
    obtain ⟨y, held, e⟩ := List.mem_map.mp here
    exact other x mem y held e.symm
  have gone : news.filter (fun x => x.1 ∉ refs) = [] := by
    refine List.filter_eq_nil_iff.mpr fun x mem => ?_
    rw [decide_eq_true_eq, keys, not_not]
    exact List.mem_map_of_mem mem
  have live : ∀ ref ∈ refs, ref ∈ env.locals.map Prod.fst := by
    intro ref mem
    rw [locals, List.map_append, List.map_append]
    exact List.mem_append_right _ (List.mem_append_left _ ((keys ref).mp mem))
  have dropped : env.drop refs = { env with locals := kept ++ (classID, obj) :: old } := by
    rw [drop, locals, List.filter_append, List.filter_append, gone, List.nil_append,
      new_stay fun x mem y held => newer x mem y (List.mem_append_left _ held),
      new_stay fun x mem y held => (before y held x mem).symm]
  have class_stay {l : List (Nat × JObject κ)} (other : ∀ x ∈ l, x.1 ≠ classID) :
      l.filter (fun x => x.1 ∉ [classID]) = l := by
    refine List.filter_eq_self.mpr fun x mem => ?_
    rw [decide_eq_true_eq, List.mem_singleton]
    exact other x mem
  refine (run_bind (forM_deleteLocalRef sane nodup live)).trans ?_
  have mem : (classID, obj) ∈ (env.drop refs).locals := by
    rw [dropped]
    exact List.mem_append_right _ List.mem_cons_self
  refine (run_bind (deleteLocalRef_eq (sane.drop refs) mem)).trans ?_
  change some _ = some _
  rw [dropped, drop, List.filter_append, List.filter_cons_of_neg (by simp),
    class_stay fun x mem => newer x mem (classID, obj) (List.mem_append_right _ List.mem_cons_self),
    class_stay fun x mem => (after x mem).symm]

namespace Request

variable (r : Request)

/-- A request without a result is void. -/
lemma result_isNone : r.result.isNone = r.isVoid := by
  rw [result]
  cases r.isVoid <;> rfl

/-- The signature that is put together is that of the Java method. -/
lemma signature_eq : r.signature = r.type.signature := by
  have loop : ∀ (args : List ByteString) (sig : ByteString),
      args.foldl (fun sig _ => sig ++ (JType.object StringTag).signature) sig =
        (List.replicate args.length (JType.object StringTag)).foldl
          (fun result arg => result ++ arg.signature) sig := by
    intro args
    induction args with
    | nil => exact fun _ => rfl
    | cons _ args ih => exact fun sig => ih _
  exact congrArg (fun sig => sig ++ ascii ")" ++ resultSignature r.result) (loop r.args (ascii "("))

/-- What a call that ends like this has done to the thread. -/
structure Ended (ending : Ending κ) (java : ω) (env env' : JNIEnv κ ω) : Prop where
  java : env'.java = java
  exception : env'.exception = true ↔ ending = .threw
  sane : env'.Sane
  left : ∃ left, env'.locals = left ++ env.locals ∧ (left.map Prod.snd).reverse = r.leaves ending

variable {r}

/-- `av_call` calls the method with the arguments that are read from the list. -/
lemma avCall_eq (vm : JavaVM κ μ ω) (method : μ) {classID : Nat} {cls : κ} {alist : List AvArg}
    {args : List JValue} (sane : env.Sane) (calm : env.exception = false)
    (mem : (classID, .clazz cls) ∈ env.locals) (read : env.readArgs r.type.args alist = some args) :
    avCall vm r.ret classID { method, type := r.type } alist env =
      match vm.invoke method args env.java with
      | (.returns (some utf), java) =>
        if r.isVoid then some (none, { env with java })
        else some (some env.next, { env with java }.push (.string utf))
      | (.returns none, java) => some (none, { env with java })
      | (.throws, java) => some (none, { env with java, exception := true }) := by
  have kind : avCall vm r.ret classID { method, type := r.type } alist =
      callStaticMethodV vm r.isVoid classID { method, type := r.type } alist := by
    rw [ret]
    cases r.isVoid <;> rfl
  have right : ¬ (env.exception = true ∨ r.type.result.isNone ≠ r.isVoid) := by
    rintro (raised | wrong)
    · rw [calm] at raised
      cases raised
    · exact wrong r.result_isNone
  rewrite [kind, callStaticMethodV, if_neg right, sane.find mem, read]
  rfl

/-- Without a result there is nothing to read. -/
lemma readRet_none : readRet r.ret none env = some (r.ret, env) := rfl

/-- A string that came back is read. -/
lemma readRet_some {ref : Nat} {utf : ByteString} (calm : env.exception = false) (string : r.isVoid = false)
    (found : env.find ref = some (.string utf)) :
    readRet r.ret (some ref) env = some (.string (c_str utf), env) := by
  have shown : getStringUTFChars ref env = some (utf, env) := by
    rw [getStringUTFChars, if_neg (by rw [calm]; nofun), found]
  have taken : javaString2String ref env = some (c_str utf, env) := run_bind shown
  have cut : c_str (c_str utf) = c_str utf := c_str_eq_self (zero_not_mem_c_str utf)
  rw [ret, string, if_neg Bool.false_ne_true]
  refine (run_bind taken).trans ?_
  rw [cut]
  rfl

/-- The end of a call after the method: what came back is read, the arguments and the class are deleted, and
    the old references and what has come back stay. -/
lemma finish_ended {env2 env3 : JNIEnv κ ω} {call : Jni κ ω (Option Nat)} {start_ret : Option Nat}
    {ret : Dynamic} {ending : Ending κ} {java : ω} {news : List (Nat × JObject κ)} {classID : Nat}
    {obj : JObject κ} {refs : List Nat} (kept : List (Nat × JObject κ))
    (ran : call env2 = some (start_ret, env3))
    (locals : env3.locals = kept ++ (news ++ (classID, obj) :: env.locals)) (sane : env3.Sane)
    (nodup : refs.Nodup) (keys : ∀ ref, ref ∈ refs ↔ ref ∈ news.map Prod.fst)
    (got : readRet r.ret start_ret env3 = some (ret, env3)) (same : env3.java = java)
    (raised : env3.exception = true ↔ ending = .threw)
    (left : (kept.map Prod.snd).reverse = r.leaves ending) :
    ∃ env', (do
      let start_ret ← call
      let ret ← readRet r.ret start_ret
      refs.forM deleteLocalRef
      deleteLocalRef classID
      return ret : Jni κ ω Dynamic) env2 = some (ret, env') ∧ r.Ended ending java env env' := by
  have sub : (kept ++ env.locals).Sublist env3.locals := by
    rw [locals]
    exact (List.Sublist.refl kept).append ((List.sublist_cons_self _ _).trans (List.sublist_append_right _ _))
  refine ⟨{ env3 with locals := kept ++ env.locals }, ?_, same, raised, sane.sublist sub, kept, rfl, left⟩
  rw [run_bind ran]
  refine (run_bind got).trans ?_
  exact recycle_eq sane locals nodup keys ret

/-- What happens once the method is found is told by the outcome of the request. -/
lemma outcome_eq {cls : κ} {java : ω} {method : μ} (sane : env.Sane) (calm : env.exception = false) :
    ∃ env', (do
      let (alist, recycleList) ← pushArgs (r.args.map .string)
      let start_ret ← avCall vm r.ret (env.next + 1) { method, type := r.type } alist
      let ret ← readRet r.ret start_ret
      recycleList.forM deleteLocalRef
      deleteLocalRef (env.next + 1)
      return ret : Jni κ ω Dynamic) (withClass cls java env) =
        some (r.answer (r.outcome vm method java).1, env') ∧
      r.Ended (r.outcome vm method java).1 (r.outcome vm method java).2 env env' := by
  obtain ⟨env2, news, pushed, made⟩ := pushArgs_pushed (sane_withClass sane cls java) calm r.args
  have locals : env2.locals = news ++ (env.next + 1, .clazz cls) :: env.locals := by
    rw [pushed.eq]
    rfl
  have calm2 : env2.exception = false := by rw [pushed.eq]; exact calm
  have same : env2.java = java := by rw [pushed.eq]; rfl
  have called := avCall_eq vm method pushed.sane calm2
    (by rw [locals]; exact List.mem_append_right _ List.mem_cons_self) pushed.read
  rw [same] at called
  rw [run_bind made]
  dsimp only
  have nodup : (List.range' (env.next + 2) r.args.length).Nodup := List.nodup_range'
  have quiet2 (string : Option ByteString) : env2.exception = true ↔ (.returned string : Ending κ) = .threw :=
    ⟨fun raised => absurd (calm2.symm.trans raised) nofun, nofun⟩
  have sane2 (java' : ω) (exception : Bool) : Sane { env2 with java := java', exception } :=
    ⟨pushed.sane.below, pushed.sane.apart⟩
  rw [outcome]
  cases invoked : vm.invoke method (r.args.map fun s => .string (c_str s)) java with
  | mk ended java' =>
    rw [invoked] at called
    cases ended with
    | throws =>
      exact finish_ended [] called locals (sane2 java' true) nodup pushed.keys readRet_none rfl (by simp) rfl
    | returns string =>
      cases string with
      | none =>
        exact finish_ended [] called locals (sane2 java' _) nodup pushed.keys readRet_none rfl (quiet2 none) rfl
      | some utf =>
        dsimp only at called ⊢
        cases void : r.isVoid with
        | true =>
          rw [if_pos void] at called
          have same : r.answer (.returned (some utf) : Ending κ) = r.ret := by
            rw [answer, ret, if_pos void, if_pos void]
          rw [same]
          exact finish_ended [] called locals (sane2 java' _) nodup pushed.keys readRet_none rfl
            (quiet2 (some utf)) (by rw [leaves, if_pos void]; rfl)
        | false =>
          rw [if_neg (by rw [void]; nofun)] at called
          have same : r.answer (.returned (some utf) : Ending κ) = .string (c_str utf) := by
            rw [answer, if_neg (by rw [void]; nofun)]
          rw [same]
          have locals3 : ({ env2 with java := java' }.push (.string utf)).locals =
              [(env2.next, .string utf)] ++ (news ++ (env.next + 1, .clazz cls) :: env.locals) := by
            rw [push, locals]
            rfl
          exact finish_ended [(env2.next, .string utf)] called locals3 ((sane2 java' _).push _) nodup
            pushed.keys (readRet_some calm2 void find_push) rfl (quiet2 (some utf))
            (by rw [leaves, if_neg (by rw [void]; nofun)]; rfl)

end Request

/-- A call has the meaning of its request. -/
lemma callPlatformMethod_eq (vm : JavaVM κ μ ω) (r : Request) (sane : env.Sane)
    (calm : env.exception = false) :
    ∃ env', callPlatformMethod vm r env = some (r.answer (r.meaning vm env.java).1, env') ∧
      r.Ended (r.meaning vm env.java).1 (r.meaning vm env.java).2 env env' := by
  have found := getStaticMethodInfo_eq vm sane calm (c_str (replaceAll r.className))
    (c_str (r.method.takeWhile (· ≠ 58))) r.type
  have cut : c_str (c_str (replaceAll r.className)) = c_str (replaceAll r.className) :=
    c_str_eq_self (zero_not_mem_c_str _)
  have whole : c_str r.signature = r.type.signature := by
    rw [r.signature_eq]
    exact c_str_eq_self r.type.zero_not_mem_signature
  rw [cut] at found
  rw [callPlatformMethod, callPlatformMethodImpl, whole, Request.meaning]
  cases loaded : vm.loadClass (c_str (replaceAll r.className)) env.java with
  | mk cls java =>
    rw [loaded] at found
    cases cls with
    | none =>
      have quiet : env.exception = true ↔ (.noClass : Ending κ) = .threw := by simp [calm]
      refine ⟨_, run_bind found, rfl, quiet, ⟨?_, sane.apart⟩, [], rfl, rfl⟩
      exact fun x mem => Nat.lt_succ_of_lt (sane.below x mem)
    | some cls =>
      dsimp only at found ⊢
      cases asked : vm.method cls (c_str (r.method.takeWhile (· ≠ 58))) r.type java with
      | mk method java' =>
        rw [asked] at found
        cases method with
        | none =>
          have sane' := sane_withClass sane cls java'
          have quiet : env.exception = true ↔ Ending.noMethod cls = .threw := by simp [calm]
          exact ⟨_, run_bind found, rfl, quiet, sane', [(env.next + 1, .clazz cls)], rfl, rfl⟩
        | some method =>
          rw [run_bind found]
          exact Request.outcome_eq sane calm

/-! ## Runs of calls -/

section Runs
variable {l : List Request} {s : Session κ ω} {r : Request}

/-- While an exception is pending a call breaks a rule. -/
lemma callPlatformMethod_raised (raised : env.exception = true) : callPlatformMethod vm r env = none := by
  have none : newStringUTF (c_str (replaceAll r.className)) env = none := by rw [newStringUTF, if_pos raised]
  rw [callPlatformMethod, callPlatformMethodImpl, getStaticMethodInfo, getClassID]
  change Option.bind (Option.bind (Option.bind (newStringUTF _ env) _) _) _ = _
  rw [none]
  rfl

/-- One more request. -/
lemma meanings_concat (vm : JavaVM κ μ ω) (l : List Request) (r : Request) (java : ω) :
    meanings vm (l ++ [r]) java =
      ((meanings vm l java).1 ++ [(r.meaning vm (meanings vm l java).2).1],
        (r.meaning vm (meanings vm l java).2).2) := by
  rw [meanings, List.foldl_append]
  rfl

/-- Each request has an ending. -/
lemma length_meanings (vm : JavaVM κ μ ω) (l : List Request) (java : ω) :
    (meanings vm l java).1.length = l.length := by
  induction l using List.reverseRecOn with
  | nil => rfl
  | append_singleton l r ih => rw [meanings_concat, List.length_append, List.length_append, ih]; rfl

/-- The thread after some calls. -/
structure Follows (vm : JavaVM κ μ ω) (env : JNIEnv κ ω) (l : List Request) (s : Session κ ω) : Prop where
  java : s.env.java = (meanings vm l env.java).2
  answers : s.answers = List.zipWith Request.answer l (meanings vm l env.java).1
  exception : s.env.exception = true ↔ .threw ∈ (meanings vm l env.java).1
  sane : s.env.Sane
  left : ∃ left, s.env.locals = left ++ env.locals ∧
    (left.map Prod.snd).reverse = (List.zipWith Request.leaves l (meanings vm l env.java).1).flatten

/-- A call goes through unless an exception is pending, and the thread follows it. -/
lemma Follows.step (h : Follows vm env l s) :
    (s.env.exception = false → ∃ s', s.step vm r = some s') ∧
      ∀ s', s.step vm r = some s' → s.env.exception = false ∧ Follows vm env (l ++ [r]) s' := by
  by_cases calm : s.env.exception = false
  · obtain ⟨env', called, ended⟩ := callPlatformMethod_eq vm r h.sane calm
    have goes : s.step vm r = some
        { env := env', answers := s.answers ++ [r.answer (r.meaning vm s.env.java).1] } := by
      rw [Session.step, called]
      rfl
    refine ⟨fun _ => ⟨_, goes⟩, fun s' st => ⟨calm, ?_⟩⟩
    rw [goes] at st
    cases st
    have earlier : .threw ∉ (meanings vm l env.java).1 := fun mem =>
      absurd (calm.symm.trans (h.exception.mpr mem)) nofun
    have lengths := (length_meanings vm l env.java).symm
    rw [h.java] at ended
    constructor
    · rw [meanings_concat]
      exact ended.java
    · rw [meanings_concat, List.zipWith_append lengths, h.answers, h.java]
      rfl
    · rw [meanings_concat]
      change env'.exception = true ↔ _
      rw [ended.exception, List.mem_append, or_iff_right earlier, List.mem_singleton, eq_comm]
    · exact ended.sane
    · obtain ⟨left, locals, objects⟩ := h.left
      obtain ⟨left', locals', objects'⟩ := ended.left
      refine ⟨left' ++ left, ?_, ?_⟩
      · rw [locals', locals, List.append_assoc]
      · rw [meanings_concat, List.zipWith_append lengths, List.flatten_append, List.map_append,
          List.reverse_append, objects, objects']
        exact congrArg _ (List.append_nil _).symm
  · have raised : s.env.exception = true := by simpa using calm
    have stuck : s.step vm r = none := by rw [Session.step, callPlatformMethod_raised raised]; rfl
    exact ⟨fun here => absurd here calm, fun s' st => by rw [stuck] at st; cases st⟩

/-- The thread follows every run. -/
lemma follows_of_run (sane : env.Sane) (calm : env.exception = false)
    (run : Run (Exec (Session.step vm)) ⟨env, []⟩ l s) : Follows vm env l s := by
  induction run with
  | nil => exact ⟨rfl, rfl, by simp [calm, meanings], sane, [], rfl, rfl⟩
  | snoc _ st ih => exact (ih.step.2 _ st).2

/-- A call that follows calls without an exception goes through. -/
lemma exists_run (sane : env.Sane) (calm : env.exception = false)
    (earlier : .threw ∉ (meanings vm l.dropLast env.java).1) :
    ∃ s, Run (Exec (Session.step vm)) ⟨env, []⟩ l s := by
  induction l using List.reverseRecOn with
  | nil => exact ⟨_, .nil⟩
  | append_singleton l r ih =>
    rw [List.dropLast_concat] at earlier
    have before : .threw ∉ (meanings vm l.dropLast env.java).1 := by
      rcases l.eq_nil_or_concat with rfl | ⟨l', r', rfl⟩
      · exact earlier
      · rw [List.concat_eq_append] at earlier ⊢
        rw [meanings_concat] at earlier
        rw [List.dropLast_concat]
        exact fun mem => earlier (List.mem_append_left _ mem)
    obtain ⟨s1, run1⟩ := ih before
    have follows := follows_of_run sane calm run1
    obtain ⟨s, st⟩ := (follows.step (r := r)).1
      (Bool.eq_false_iff.mpr fun raised => earlier (follows.exception.mp raised))
    exact ⟨s, .snoc run1 st⟩

/-- A phone with one class and two methods, and the number of calls of them. The second returns its argument. -/
def phone : JavaVM Unit Bool Nat where
  loadClass name java := (if name = ascii "com/lgengine/Platform" then some () else none, java)
  method _ name type java :=
    (if name = ascii "getCarrierName" ∧ type = ⟨[], some (.object StringTag)⟩ then some false
      else if name = ascii "getSignal" ∧ type = ⟨[.object StringTag], some (.object StringTag)⟩ then some true
      else none, java)
  invoke method args java :=
    match method, args with
    | false, [] => (.returns (some (ascii "Tel")), java + 1)
    | true, [.string s] => (.returns (some s), java + 1)
    | _, _ => (.throws, java)

/-- The carrier and the signal are asked for, then a method that there is not. -/
def questions : List Request :=
  [⟨ascii "com::lgengine::Platform", ascii "getCarrierName", [], false⟩,
    ⟨ascii "com::lgengine::Platform", ascii "getSignal:", [ascii "dBm"], false⟩,
    ⟨ascii "com::lgengine::Platform", ascii "getNetworkType", [], false⟩]

/-- A thread that was just attached. -/
def attached : JNIEnv Unit Nat where
  locals := []
  next := 0
  exception := false
  java := 0

/-- It has no references. -/
lemma sane_attached : attached.Sane := ⟨nofun, .nil⟩

/-- Calls follow the rules of `JNIEnv` if and only if no method throws before the last call. -/
theorem completes_iff (sane : env.Sane) (calm : env.exception = false) :
    (∃ s, Run (Exec (Session.step vm)) ⟨env, []⟩ l s) ↔ .threw ∉ (meanings vm l.dropLast env.java).1 := by
  refine ⟨?_, exists_run sane calm⟩
  rintro ⟨s, run⟩
  rcases l.eq_nil_or_concat with rfl | ⟨l, r, rfl⟩
  · exact nofun
  · rw [List.concat_eq_append] at run ⊢
    obtain ⟨s1, run1, st⟩ := run.snoc_inv
    have follows := follows_of_run sane calm run1
    have quiet := (follows.step.2 s st).1
    rw [List.dropLast_concat]
    exact fun mem => absurd (quiet.symm.trans (follows.exception.mpr mem)) nofun

/-- The phone throws no exception. -/
theorem completes_iff_phone : ∃ s, Run (Exec (Session.step phone)) ⟨attached, []⟩ questions s :=
  (completes_iff sane_attached rfl).mpr (by decide +kernel)

/-- The references that were there stay. Each call leaves one behind to the class whose method was not found or
    to the string that was returned, in the order of the calls, and no other. -/
theorem locals_of_run (sane : env.Sane) (calm : env.exception = false)
    (run : Run (Exec (Session.step vm)) ⟨env, []⟩ l s) :
    ∃ left, s.env.locals = left ++ env.locals ∧
      (left.map Prod.snd).reverse = (List.zipWith Request.leaves l (meanings vm l env.java).1).flatten :=
  (follows_of_run sane calm run).left

/-- The name of the carrier, the signal and the class stay. -/
theorem locals_of_run_phone :
    ∃ s : Session Unit Nat, ∃ left, s.env.locals = left ++ [] ∧
      (left.map Prod.snd).reverse = [.string (ascii "Tel"), .string (ascii "dBm"), .clazz ()] := by
  obtain ⟨s, run⟩ : ∃ s, Run (Exec (Session.step phone)) ⟨attached, []⟩ questions s :=
    exists_run sane_attached rfl (by decide +kernel)
  exact ⟨s, locals_of_run sane_attached rfl run⟩

end Runs

end PlatformServiceAndroid
end XLN
