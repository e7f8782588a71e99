import XLN.Foundation.DataStream
import XLN.Lib.Before
import Mathlib.Tactic.Common

/-!
# Several thrift services behind one processor

`Server/Thrift/ThriftMuxService.h` and `.cpp`: `ThriftMuxServiceTemplate` makes one object of every
service of a parameter pack, `ThriftMuxProcessorTemplate` one processor of each of these, in a map
ordered by the names of the services. Each level of the template takes its processor out of this map
with `dynamic_cast`, the requests go to the levels in the order of the pack. The processor classes are
generated code; of these only the names, the process maps and what derives from what are used.
-/

namespace XLN

/-- A service class `T`, with the static members of `T::ProcessorType` and its service name. -/
structure ServerInterface (C : Type) where
  ProcessorType : C
  getServiceName : ByteString
  getBinaryProtocolProcessMap : List ByteString

/-- A processor object, with the class that `dynamic_cast` finds. -/
structure AsyncProcessor (C : Type) where
  dynamicType : C
  getServiceName : ByteString
  deriving DecidableEq

/-- `getProcessor`. -/
def ServerInterface.getProcessor {C : Type} (T : ServerInterface C) : AsyncProcessor C :=
  ⟨T.ProcessorType, T.getServiceName⟩

/-- `isOnewayMethod` of a generated processor, where `onewayMethods` are the methods that its class declares
    so. -/
def AsyncProcessor.isOnewayMethod {C : Type} (onewayMethods : C → List ByteString)
    (processor : AsyncProcessor C) (methodName : ByteString) : Bool :=
  methodName ∈ onewayMethods processor.dynamicType

/-- `ThriftMuxServiceTemplate::ThriftMuxServiceTemplate`, which gives `m_MuxServices`. -/
def ThriftMuxServiceTemplate.new {C : Type} : List (ServerInterface C) → List (ServerInterface C)
  | [] => []
  | T :: Ts => new Ts ++ [T]

namespace ThriftMuxProcessor
variable {C : Type}

/-- `ThriftMuxProcessor::ThriftMuxProcessor`, which gives `m_Processors`. -/
def new (services : List (ServerInterface C)) : Std.ExtTreeMap ByteString (AsyncProcessor C) :=
  services.foldl (fun m_Processors v => m_Processors.insertIfNew v.getServiceName v.getProcessor) ∅

variable (derives : C → C → Prop) [DecidableRel derives]

/-- The loop of a constructor `ThriftMuxProcessorTemplate<T, Ts...>`, which gives `m_CurProcessor`, or
    `none` if it leaves this uninitialised. -/
def curProcessor (m_Processors : Std.ExtTreeMap ByteString (AsyncProcessor C)) (T : ServerInterface C) :
    Option (AsyncProcessor C) :=
  (m_Processors.toList.find? fun kv => derives kv.2.dynamicType T.ProcessorType).map (·.2)

/-- `ThriftMuxProcessorTemplate<T, Ts...>::process`, with the processors that it hands the request to. -/
def process (m_Processors : Std.ExtTreeMap ByteString (AsyncProcessor C)) (methodName : ByteString) :
    ServerInterface C → List (ServerInterface C) → List (Option (AsyncProcessor C))
  -- the last one processes it anyway
  | T, [] => [curProcessor derives m_Processors T]
  | T, T' :: Ts =>
    if methodName ∈ T.getBinaryProtocolProcessMap then [curProcessor derives m_Processors T]
    else process m_Processors methodName T' Ts

/-- A request on the processor that `ThriftMuxServiceTemplate<T, Ts...>::getProcessor` makes. -/
def request (methodName : ByteString) (T : ServerInterface C) (Ts : List (ServerInterface C)) :
    List (Option (AsyncProcessor C)) :=
  process derives (new (ThriftMuxServiceTemplate.new (T :: Ts))) methodName T Ts

/-- The first service of the pack whose process map contains the method, or the last service if none
    does. -/
def responsible (methodName : ByteString) (T : ServerInterface C) (Ts : List (ServerInterface C)) :
    ServerInterface C :=
  ((T :: Ts).find? fun S => methodName ∈ S.getBinaryProtocolProcessMap).getD
    ((T :: Ts).getLast (List.cons_ne_nil T Ts))

/-- No two services have one name. -/
def Distinct (services : List (ServerInterface C)) : Prop :=
  (services.map ServerInterface.getServiceName).Nodup

instance (services : List (ServerInterface C)) : Decidable (Distinct services) :=
  inferInstanceAs (Decidable (List.Nodup _))

/-- The service is the last one of the pack with its name. -/
inductive LastNamed : List (ServerInterface C) → ServerInterface C → Prop where
  | head {T Ts} :
    (∀ S ∈ Ts, S.getServiceName ≠ T.getServiceName) →
    LastNamed (T :: Ts) T
  | tail {T Ts S} :
    LastNamed Ts S →
    LastNamed (T :: Ts) S

/-- No service whose processor class derives from that of `R` has a smaller name. -/
def Least (services : List (ServerInterface C)) (R : ServerInterface C) : Prop :=
  ∀ S ∈ services, derives S.ProcessorType R.ProcessorType →
    compare S.getServiceName R.getServiceName ≠ .lt

instance (services : List (ServerInterface C)) (R : ServerInterface C) :
    Decidable (Least derives services R) :=
  inferInstanceAs (Decidable (∀ S ∈ services, _ → _))

variable {derives} {services Ts : List (ServerInterface C)} {T R : ServerInterface C}
  {methodName : ByteString} {m_Processors : Std.ExtTreeMap ByteString (AsyncProcessor C)}

omit [DecidableRel derives] in
/-- The template keeps the services. -/
lemma template_perm (services : List (ServerInterface C)) :
    (ThriftMuxServiceTemplate.new services).Perm services := by
  induction services with
  | nil => exact .nil
  | cons T Ts ih =>
    have last : (ThriftMuxServiceTemplate.new Ts ++ [T]).Perm (T :: ThriftMuxServiceTemplate.new Ts) :=
      List.perm_append_singleton ..
    exact last.trans (ih.cons T)

/-- Under distinct names the map holds what the services have made. -/
lemma getElem?_foldl (distinct : Distinct services)
    (fresh : ∀ S ∈ services, S.getServiceName ∉ m_Processors) (name : ByteString)
    (processor : AsyncProcessor C) :
    (services.foldl (fun m v => m.insertIfNew v.getServiceName v.getProcessor) m_Processors)[name]? =
        some processor ↔
      m_Processors[name]? = some processor ∨
        ∃ S ∈ services, S.getServiceName = name ∧ S.getProcessor = processor := by
  induction services generalizing m_Processors with
  | nil => simp
  | cons T Ts ih =>
    unfold Distinct at distinct
    rw [List.map_cons, List.nodup_cons] at distinct
    have absent : T.getServiceName ∉ m_Processors := fresh T List.mem_cons_self
    have fresh' : ∀ S ∈ Ts,
        S.getServiceName ∉ m_Processors.insertIfNew T.getServiceName T.getProcessor := by
      intro S mem
      rw [Std.ExtTreeMap.mem_insertIfNew, Std.LawfulEqCmp.compare_eq_iff_eq, not_or]
      refine ⟨fun same => distinct.1 ?_, fresh S (List.mem_cons_of_mem _ mem)⟩
      rw [same]
      exact List.mem_map_of_mem mem
    rw [List.foldl_cons, ih distinct.2 fresh', Std.ExtTreeMap.getElem?_insertIfNew]
    simp only [Std.LawfulEqCmp.compare_eq_iff_eq, List.exists_mem_cons_iff]
    by_cases here : T.getServiceName = name
    · subst here
      simp [absent]
    · simp [here]

/-- With distinct names the processor of a name is that of its service. -/
lemma mem_toList_new (distinct : Distinct services) (name : ByteString)
    (processor : AsyncProcessor C) :
    (name, processor) ∈ (new services).toList ↔
      ∃ S ∈ services, S.getServiceName = name ∧ S.getProcessor = processor := by
  rw [Std.ExtTreeMap.mem_toList_iff_getElem?_eq_some, new, getElem?_foldl distinct (by simp)]
  simp

/-- The dispatch goes to the level of the responsible service. -/
lemma process_eq (m_Processors : Std.ExtTreeMap ByteString (AsyncProcessor C))
    (methodName : ByteString) (T : ServerInterface C) (Ts : List (ServerInterface C)) :
    process derives m_Processors methodName T Ts =
      [curProcessor derives m_Processors (responsible methodName T Ts)] := by
  induction Ts generalizing T with
  | nil =>
    unfold process responsible
    by_cases here : methodName ∈ T.getBinaryProtocolProcessMap
    · simp [here]
    · simp [here]
  | cons T' Ts ih =>
    unfold process
    by_cases here : methodName ∈ T.getBinaryProtocolProcessMap
    · simp [responsible, here]
    · rw [if_neg here, ih T']
      simp [responsible, here]

/-- The service that is responsible is one of them. -/
lemma responsible_mem (methodName : ByteString) (T : ServerInterface C) (Ts : List (ServerInterface C)) :
    responsible methodName T Ts ∈ T :: Ts := by
  unfold responsible
  cases found : (T :: Ts).find? fun S => methodName ∈ S.getBinaryProtocolProcessMap with
  | none => exact List.getLast_mem _
  | some S => exact List.mem_of_find?_eq_some found

/-- The entries of the map are in the order of their names. -/
lemma compare_asymm {a b : ByteString × AsyncProcessor C} (less : compare a.1 b.1 = .lt) :
    ¬ compare b.1 a.1 = .lt := by
  rw [Std.OrientedCmp.gt_of_lt less]
  exact nofun

/-- The loop finds the object that a service has made exactly if no other object that passes for it has a
    smaller name. -/
lemma curProcessor_eq_iff (refl : ∀ c, derives c c) (distinct : Distinct services)
    (mem : R ∈ services) :
    curProcessor derives (new services) R = some R.getProcessor ↔ Least derives services R := by
  have own : (R.getServiceName, R.getProcessor) ∈ (new services).toList :=
    (mem_toList_new distinct _ _).mpr ⟨R, mem, rfl, rfl⟩
  have least := fun e => List.find?_eq_some_iff_of_pairwise
    (p := fun kv => decide (derives kv.2.dynamicType R.ProcessorType)) (a := e)
    (new services).ordered_keys_toList compare_asymm
  unfold curProcessor Least
  constructor
  · intro found S memS passes less
    obtain ⟨e, first, same⟩ := Option.map_eq_some_iff.mp found
    obtain ⟨meme, -, smallest⟩ := (least e).mp first
    -- the entry that was found is the one of `R`
    obtain ⟨R', -, name, object⟩ := (mem_toList_new distinct e.1 e.2).mp meme
    have key : e.1 = R.getServiceName := by
      rw [← name]
      exact congrArg AsyncProcessor.getServiceName (object.trans same)
    have entry : (S.getServiceName, S.getProcessor) ∈ (new services).toList :=
      (mem_toList_new distinct _ _).mpr ⟨S, memS, rfl, rfl⟩
    refine smallest _ entry (decide_eq_true passes) ?_
    rw [key]
    exact less
  · intro smallest
    refine Option.map_eq_some_iff.mpr ⟨(R.getServiceName, R.getProcessor), ?_, rfl⟩
    refine (least _).mpr ⟨own, decide_eq_true (refl R.ProcessorType), fun e meme passes => ?_⟩
    obtain ⟨S, memS, name, object⟩ := (mem_toList_new distinct e.1 e.2).mp meme
    rw [← name]
    apply smallest S memS
    rw [← object] at passes
    exact of_decide_eq_true passes

omit [DecidableRel derives] in
/-- The least service does not depend on the order. -/
lemma least_of_perm {services' : List (ServerInterface C)} (perm : services.Perm services') :
    Least derives services R ↔ Least derives services' R := by
  unfold Least
  simp only [perm.mem_iff]

/-- A request is handed on exactly once, to the object of the responsible service, if and only if no other
    service whose processor class derives from the one of that service has a smaller name. -/
theorem request_iff (derives : C → C → Prop) [DecidableRel derives] (refl : ∀ c, derives c c)
    (T : ServerInterface C) (Ts : List (ServerInterface C)) (distinct : Distinct (T :: Ts))
    (methodName : ByteString) :
    request derives methodName T Ts = [some (responsible methodName T Ts).getProcessor] ↔
      Least derives (T :: Ts) (responsible methodName T Ts) := by
  have perm := template_perm (T :: Ts)
  have distinct' : Distinct (ThriftMuxServiceTemplate.new (T :: Ts)) :=
    (perm.map ServerInterface.getServiceName).nodup_iff.mpr distinct
  have mem := perm.mem_iff.mpr (responsible_mem methodName T Ts)
  rw [request, process_eq, List.singleton_inj, curProcessor_eq_iff refl distinct' mem,
    least_of_perm perm]

section Extended

/-- A service `echo` whose method `a` is called, and one with the given name that extends it. -/
def echo : ServerInterface Nat := ⟨0, [101, 99, 104, 111], [[97]]⟩

def extended (getServiceName : ByteString) : ServerInterface Nat := ⟨1, getServiceName, [[98]]⟩

/-- The statement above for a service `zero` that extends `echo`. -/
theorem request_iff_zero :
    request (· ≥ ·) [97] echo [extended [122, 101, 114, 111]] = [some echo.getProcessor] :=
  (request_iff (· ≥ ·) Nat.le_refl echo [extended [122, 101, 114, 111]] (by decide) [97]).mpr
    (by decide)

/-- If the service that extends `echo` is called `app`, its object gets the requests for `echo`. -/
theorem request_extended :
    (∀ c : Nat, c ≥ c) ∧ Distinct [echo, extended [97, 112, 112]] ∧
      responsible [97] echo [extended [97, 112, 112]] = echo ∧
      request (· ≥ ·) [97] echo [extended [97, 112, 112]] =
        [some (extended [97, 112, 112]).getProcessor] ∧
      request (· ≥ ·) [97] echo [extended [97, 112, 112]] ≠ [some echo.getProcessor] := by
  refine ⟨Nat.le_refl, by decide, rfl, by decide, by decide⟩

end Extended

/-! ## Oneway methods -/

section Oneway
variable (onewayMethods : C → List ByteString)

/-- `ThriftMuxProcessor::isOnewayMethod`. -/
def isOnewayMethod (m_Processors : Std.ExtTreeMap ByteString (AsyncProcessor C))
    (methodName : ByteString) : Bool :=
  m_Processors.toList.any fun kv => kv.2.isOnewayMethod onewayMethods methodName

/-- The service declares the method oneway. -/
def DeclaresOneway (T : ServerInterface C) (methodName : ByteString) : Prop :=
  methodName ∈ onewayMethods T.ProcessorType

instance (T : ServerInterface C) (methodName : ByteString) :
    Decidable (DeclaresOneway onewayMethods T methodName) :=
  inferInstanceAs (Decidable (methodName ∈ onewayMethods T.ProcessorType))

/-- What the last services of each name declare oneway is what `R` declares oneway. -/
structure DeclaredAlike (services : List (ServerInterface C)) (R : ServerInterface C)
    (methodName : ByteString) : Prop where
  only : ∀ S, LastNamed services S → DeclaresOneway onewayMethods S methodName →
    DeclaresOneway onewayMethods R methodName
  kept : DeclaresOneway onewayMethods R methodName →
    ∃ S, LastNamed services S ∧ DeclaresOneway onewayMethods S methodName

variable {onewayMethods} {S : ServerInterface C}

/-- The first service of the pack is the last one that is made. -/
lemma new_template_cons (T : ServerInterface C) (Ts : List (ServerInterface C)) :
    new (ThriftMuxServiceTemplate.new (T :: Ts)) =
      (new (ThriftMuxServiceTemplate.new Ts)).insertIfNew T.getServiceName T.getProcessor := by
  rw [ThriftMuxServiceTemplate.new, new, List.foldl_append]
  rfl

/-- The processor knows the names of its services. -/
lemma mem_new (services : List (ServerInterface C)) (name : ByteString) :
    name ∈ new (ThriftMuxServiceTemplate.new services) ↔ ∃ S ∈ services, S.getServiceName = name := by
  induction services with
  | nil => simp [new, ThriftMuxServiceTemplate.new]
  | cons T Ts ih =>
    rw [new_template_cons, Std.ExtTreeMap.mem_insertIfNew, Std.LawfulEqCmp.compare_eq_iff_eq, ih]
    simp only [List.exists_mem_cons_iff]

/-- The last service of a name is one of them. -/
lemma LastNamed.mem (last : LastNamed services S) : S ∈ services := by
  induction last with
  | head => exact List.mem_cons_self
  | tail _ ih => exact List.mem_cons_of_mem _ ih

/-- Of several services with one name the map keeps the object of the last one of the pack, which is the
    first one of `m_MuxServices`. -/
lemma getElem?_new (services : List (ServerInterface C)) (name : ByteString)
    (processor : AsyncProcessor C) :
    (new (ThriftMuxServiceTemplate.new services))[name]? = some processor ↔
      ∃ S, LastNamed services S ∧ S.getServiceName = name ∧ S.getProcessor = processor := by
  induction services with
  | nil =>
    constructor
    · exact fun e => nomatch e
    · rintro ⟨S, last, -⟩
      cases last
  | cons T Ts ih =>
    rw [new_template_cons, Std.ExtTreeMap.getElem?_insertIfNew]
    simp only [Std.LawfulEqCmp.compare_eq_iff_eq, mem_new]
    split
    next here =>
      obtain ⟨rfl, absent⟩ := here
      constructor
      · rintro ⟨⟩
        exact ⟨T, .head fun S mem same => absent ⟨S, mem, same⟩, rfl, rfl⟩
      · rintro ⟨S, last, same, rfl⟩
        cases last with
        | head => rfl
        | tail last => exact absurd ⟨S, last.mem, same⟩ absent
    next other =>
      rw [ih]
      constructor
      · rintro ⟨S, last, rest⟩
        exact ⟨S, .tail last, rest⟩
      · rintro ⟨S, last, rfl, rfl⟩
        cases last with
        | tail last => exact ⟨S, last, rfl, rfl⟩
        | head apart =>
          refine absurd ⟨rfl, ?_⟩ other
          rintro ⟨S, mem, same⟩
          exact apart S mem same

/-- A method is oneway if the last service of one of the names declares it so. -/
lemma isOnewayMethod_eq_true_iff (services : List (ServerInterface C)) (methodName : ByteString) :
    isOnewayMethod onewayMethods (new (ThriftMuxServiceTemplate.new services)) methodName = true ↔
      ∃ S, LastNamed services S ∧ DeclaresOneway onewayMethods S methodName := by
  simp only [isOnewayMethod, AsyncProcessor.isOnewayMethod, List.any_eq_true, decide_eq_true_eq]
  constructor
  · rintro ⟨⟨name, processor⟩, mem, oneway⟩
    rw [Std.ExtTreeMap.mem_toList_iff_getElem?_eq_some, getElem?_new] at mem
    obtain ⟨S, last, rfl, rfl⟩ := mem
    exact ⟨S, last, oneway⟩
  · rintro ⟨S, last, oneway⟩
    refine ⟨(S.getServiceName, S.getProcessor), ?_, oneway⟩
    rw [Std.ExtTreeMap.mem_toList_iff_getElem?_eq_some, getElem?_new]
    exact ⟨S, last, rfl, rfl⟩

/-- With distinct names each service is the last of its name. -/
lemma LastNamed.of_distinct (distinct : Distinct services) (mem : S ∈ services) :
    LastNamed services S := by
  induction services with
  | nil => cases mem
  | cons T Ts ih =>
    unfold Distinct at distinct
    rw [List.map_cons, List.nodup_cons] at distinct
    cases mem with
    | tail _ mem => exact .tail (ih distinct.2 mem)
    | head =>
      refine .head fun S' mem' same => distinct.1 ?_
      rw [← same]
      exact List.mem_map_of_mem mem'

/-- For every pack, `isOnewayMethod` answers whether the responsible service declares the method oneway, if
    and only if the services that are the last ones with their names declare the same. -/
theorem isOnewayMethod_iff (onewayMethods : C → List ByteString) (T : ServerInterface C)
    (Ts : List (ServerInterface C)) (methodName : ByteString) :
    (isOnewayMethod onewayMethods (new (ThriftMuxServiceTemplate.new (T :: Ts))) methodName = true ↔
        DeclaresOneway onewayMethods (responsible methodName T Ts) methodName) ↔
      DeclaredAlike onewayMethods (T :: Ts) (responsible methodName T Ts) methodName := by
  rw [isOnewayMethod_eq_true_iff]
  constructor
  · intro same
    exact ⟨fun S last oneway => same.mp ⟨S, last, oneway⟩, same.mpr⟩
  · rintro ⟨only, kept⟩
    exact ⟨fun ⟨S, last, oneway⟩ => only S last oneway, kept⟩

/-- Where all names differ, it is right if and only if no service declares the method oneway unless the
    responsible one does. -/
theorem isOnewayMethod_iff_of_distinct (onewayMethods : C → List ByteString) (T : ServerInterface C)
    (Ts : List (ServerInterface C)) (distinct : Distinct (T :: Ts)) (methodName : ByteString) :
    DeclaredAlike onewayMethods (T :: Ts) (responsible methodName T Ts) methodName ↔
      ∀ S ∈ T :: Ts, DeclaresOneway onewayMethods S methodName →
        DeclaresOneway onewayMethods (responsible methodName T Ts) methodName := by
  constructor
  · exact fun alike S mem => alike.only S (.of_distinct distinct mem)
  · intro only
    refine ⟨fun S last => only S last.mem, fun oneway => ⟨_, ?_, oneway⟩⟩
    exact .of_distinct distinct (responsible_mem methodName T Ts)

/-- A service `echo` with an ordinary method `a` is before a service `zero` with a oneway method `a`. The
    method is dispatched to `echo` and taken for oneway. -/
theorem isOnewayMethod_overlapping :
    let zero : ServerInterface Nat := ⟨1, [122, 101, 114, 111], [[97]]⟩
    let onewayMethods : Nat → List ByteString := fun c => if c = 1 then [[97]] else []
    responsible [97] echo [zero] = echo ∧
      ¬ (isOnewayMethod onewayMethods (new (ThriftMuxServiceTemplate.new [echo, zero])) [97] = true ↔
        DeclaresOneway onewayMethods echo [97]) := by
  refine ⟨rfl, by decide⟩

end Oneway
end ThriftMuxProcessor
end XLN
