import XLN.Foundation.ServiceMgr.Basic
import XLN.Framework.ConfigService

/-!
# Services from the configuration

`Core/Framework/System.cpp`: `InjectService` registers the services that the configuration lists, by the names
of their classes. A registration adds the class of each creator with the name (`grown_registerServices`).
`injectService_iff`: where the file or a part of it is missing, the function throws or is undefined.
-/

namespace XLN

/-- An entry of `Service::GetCreators()`. `create` gives the object of an allocation. -/
structure Creator where
  id : ServiceID
  create : Nat → Service
  getID_create : ∀ n, (create n).getID = id

/-- The manager, the number of services that have been created and the callbacks that have run. -/
structure Registration where
  mgr : ServiceMgr
  created : Nat
  calls : List Callback

/-- One round of the loop of `RegisterService`. -/
def registerCreated (less : ServiceID → ServiceID → Bool) (creator : Creator) (reg : Registration) :
    Registration :=
  let (mgr, calls) := reg.mgr.registerService less (creator.create reg.created)
  { mgr, created := reg.created + 1, calls := reg.calls ++ calls }

/-- `ServiceMgr::RegisterService` with a name. `creators` are the entries of the map in their order. -/
def registerServices (less : ServiceID → ServiceID → Bool) (creators : List Creator) (name : String)
    (reg : Registration) : Registration :=
  creators.foldl
    (fun reg creator => if creator.id.getName = name then registerCreated less creator reg else reg) reg

/-- The loop of `InjectService`. -/
def injectLoop (lib : Nlohmann) (less : ServiceID → ServiceID → Bool) (creators : List Creator) :
    List Json → Registration → Outcome Registration
  | [], reg => .returns reg
  | it :: services, reg =>
    (lib.at_ it "Class").bind fun value =>
      (lib.toString value).bind fun classname =>
        injectLoop lib less creators services (registerServices less creators classname reg)

/-- `InjectService`. -/
def injectService (lib : Nlohmann) (less : ServiceID → ServiceID → Bool) (creators : List Creator)
    (config : ConfigService) (reg : Registration) : Outcome Registration :=
  if lib.eqNullptr (config.getAppConfig lib) then .returns reg
  else
    (lib.atConst (config.getAppConfig lib) "XLNAppConfig").bind fun app =>
      (lib.atConst app "Services").bind fun services =>
        if lib.eqNullptr services then .returns reg
        else injectLoop lib less creators (lib.toList services) reg

/-! ## What should be registered -/

/-- What loading the file gives, with the names that are listed. -/
inductive Listed : Option Json → List String → Prop
  | not_loaded : Listed none []
  | no_app {j} (absent : j.member "XLNAppConfig" = none) : Listed (some j) []
  | no_services {j app} (present : j.member "XLNAppConfig" = some app)
    (absent : app.member "Services" = none) : Listed (some j) []
  | services {j app elements names} (present : j.member "XLNAppConfig" = some app)
    (array : app.member "Services" = some (.array elements))
    (classes : elements.map (fun element => element.member "Class") =
      names.map fun name => some (.string name)) :
    Listed (some j) names

/-- A service with this name is registered. -/
def ServiceMgr.HasName (mgr : ServiceMgr) (name : String) : Prop :=
  ∃ id ∈ mgr.m_Services.map Prod.fst, id.getName = name

/-- The name is listed and has a creator, but no service with the name is registered yet. -/
def Wanted (creators : List Creator) (names : List String) (mgr : ServiceMgr) (name : String) : Prop :=
  name ∈ names ∧ (∃ creator ∈ creators, creator.id.getName = name) ∧ ¬ mgr.HasName name

/-- One service is added for each name that is wanted, and nothing else. -/
def Injected (creators : List Creator) (names : List String) (mgr mgr' : ServiceMgr) : Prop :=
  ∃ added : ServiceMap, mgr'.m_Services.Perm (added ++ mgr.m_Services) ∧
    (∀ e ∈ added, e.2.m_Service.getID = e.1) ∧
    ∀ name, (Wanted creators names mgr name → ∃ e, added.filter (fun e => e.1.getName = name) = [e]) ∧
      (¬ Wanted creators names mgr name → added.filter (fun e => e.1.getName = name) = [])

/-- The file was loaded, and is null or has all that `InjectService` reads. -/
def Complete (file : Option Json) : Prop :=
  file = some .null ∨
    ∃ j app services, file = some j ∧ j.member "XLNAppConfig" = some app ∧
      app.member "Services" = some services

/-- Each listed name stands for one class: where a service with the name is registered, so are the classes of
    all creators with the name, and else there is at most one such class. -/
def OneClass (creators : List Creator) (names : List String) (mgr : ServiceMgr) : Prop :=
  ∀ name ∈ names,
    (mgr.HasName name → ∀ creator ∈ creators, creator.id.getName = name →
      creator.id ∈ mgr.m_Services.map Prod.fst) ∧
    (¬ mgr.HasName name → ∀ creator ∈ creators, ∀ creator' ∈ creators, creator.id.getName = name →
      creator'.id.getName = name → creator.id = creator'.id)

/-! ## Registrations -/

/-- What the map gains: one entry for each class with `P` that was not registered. -/
structure Grown (P : ServiceID → Prop) (m m' added : ServiceMap) : Prop where
  perm : m'.Perm (added ++ m)
  nodup : (added.map Prod.fst).Nodup
  service : ∀ e ∈ added, e.2.m_Service.getID = e.1
  mem_iff : ∀ id, id ∈ added.map Prod.fst ↔ P id ∧ id ∉ m.map Prod.fst

variable {lib : Nlohmann} {less : ServiceID → ServiceID → Bool} {creators : List Creator}
  {names : List String} {reg : Registration} {mgr mgr' : ServiceMgr} {P Q : ServiceID → Prop}
  {m m' m'' added added' : ServiceMap} {file : Option Json} {j app : Json}

/-- No service is added where none is asked for. -/
lemma Grown.none (none : ∀ id, ¬ P id) : Grown P m m [] where
  perm := .refl m
  nodup := List.nodup_nil
  service := by simp
  mem_iff := by simp [none]

/-- The classes of the map are those that were there and those that were added. -/
lemma Grown.keys (grown : Grown P m m' added) (id : ServiceID) :
    id ∈ m'.map Prod.fst ↔ id ∈ added.map Prod.fst ∨ id ∈ m.map Prod.fst := by
  rw [(grown.perm.map Prod.fst).mem_iff, List.map_append, List.mem_append]

/-- Two gains after another are one. -/
lemma Grown.trans (grown : Grown P m m' added) (grown' : Grown Q m' m'' added') :
    Grown (fun id => P id ∨ Q id) m m'' (added' ++ added) where
  perm := by
    rw [List.append_assoc]
    exact grown'.perm.trans (grown.perm.append_left added')
  nodup := by
    rw [List.map_append, List.nodup_append']
    refine ⟨grown'.nodup, grown.nodup, fun id mem' mem => ?_⟩
    exact ((grown'.mem_iff id).mp mem').2 ((grown.keys id).mpr (.inl mem))
  service := by
    intro e mem
    rcases List.mem_append.mp mem with mem | mem
    · exact grown'.service e mem
    · exact grown.service e mem
  mem_iff := by
    intro id
    rw [List.map_append, List.mem_append, grown'.mem_iff, grown.keys, grown.mem_iff]
    tauto

/-- Only the classes that are asked for matter. -/
lemma Grown.congr (grown : Grown P m m' added) (iff : ∀ id, P id ↔ Q id) : Grown Q m m' added where
  perm := grown.perm
  nodup := grown.nodup
  service := grown.service
  mem_iff := by simpa [iff] using grown.mem_iff

/-- `RegisterService` adds the class of the service. -/
lemma grown_registerService (less : ServiceID → ServiceID → Bool) (service : Service) (mgr : ServiceMgr) :
    ∃ added, Grown (fun id => id = service.getID) mgr.m_Services
      (mgr.registerService less service).1.m_Services added := by
  unfold ServiceMgr.registerService
  split
  next registered =>
    have mem := ServiceMgr.isRegistered_iff.mp registered
    refine ⟨[], .refl _, List.nodup_nil, by simp, fun id => ?_⟩
    simp only [List.map_nil, List.not_mem_nil, false_iff, not_and, not_not]
    rintro rfl
    exact mem
  next absent =>
    have none := ServiceMgr.find_of_not_registered absent
    refine ⟨[(service.getID, _)], ServiceMap.assign_perm none, List.nodup_singleton _, by simp, fun id => ?_⟩
    simp only [List.map_cons, List.map_nil, List.mem_singleton]
    refine ⟨fun e => ⟨e, e ▸ ServiceMap.find_eq_none.mp none⟩, fun both => both.1⟩

/-- `RegisterService` with a name adds the classes of all creators with the name. -/
lemma grown_registerServices (less : ServiceID → ServiceID → Bool) (creators : List Creator) (name : String)
    (reg : Registration) :
    ∃ added, Grown (fun id => (∃ creator ∈ creators, creator.id = id) ∧ id.getName = name) reg.mgr.m_Services
      (registerServices less creators name reg).mgr.m_Services added := by
  induction creators generalizing reg with
  | nil => exact ⟨[], .none (by simp)⟩
  | cons creator creators ih =>
    rw [registerServices, List.foldl_cons]
    split
    next named =>
      obtain ⟨added, grown⟩ := grown_registerService less (creator.create reg.created) reg.mgr
      obtain ⟨added', grown'⟩ := ih (registerCreated less creator reg)
      refine ⟨_, (grown.trans grown').congr fun id => ?_⟩
      rw [creator.getID_create, List.exists_mem_cons_iff]
      constructor
      · rintro (rfl | ⟨listed, e⟩)
        · exact ⟨.inl rfl, named⟩
        · exact ⟨.inr listed, e⟩
      · rintro ⟨rfl | listed, e⟩
        · exact .inl rfl
        · exact .inr ⟨listed, e⟩
    next other =>
      obtain ⟨added, grown⟩ := ih reg
      refine ⟨added, grown.congr fun id => ?_⟩
      rw [List.exists_mem_cons_iff]
      constructor
      · rintro ⟨listed, e⟩
        exact ⟨.inr listed, e⟩
      · rintro ⟨rfl | listed, e⟩
        · exact absurd e other
        · exact ⟨listed, e⟩

/-- A class that the loop of `InjectService` adds, if it is not registered. -/
def Named (creators : List Creator) (names : List String) (id : ServiceID) : Prop :=
  (∃ creator ∈ creators, creator.id = id) ∧ id.getName ∈ names

/-- The loop returns and adds the classes of all creators with a listed name. -/
lemma injectLoop_grown (lawful : lib.Lawful) (less : ServiceID → ServiceID → Bool) (creators : List Creator)
    (reg : Registration) {elements : List Json}
    (classes : elements.map (fun element => element.member "Class") =
      names.map fun name => some (.string name)) :
    ∃ reg' added, injectLoop lib less creators elements reg = .returns reg' ∧
      Grown (Named creators names) reg.mgr.m_Services reg'.mgr.m_Services added := by
  induction elements generalizing names reg with
  | nil =>
    obtain rfl := List.map_eq_nil_iff.mp classes.symm
    exact ⟨reg, [], rfl, .none (by simp [Named])⟩
  | cons element elements ih =>
    cases names with
    | nil => cases classes
    | cons name names =>
      obtain ⟨e, classes⟩ := List.cons.inj classes
      obtain ⟨added, grown⟩ := grown_registerServices less creators name reg
      obtain ⟨reg', added', returns, grown'⟩ := ih (registerServices less creators name reg) classes
      refine ⟨reg', _, ?_, (grown.trans grown').congr fun id => ?_⟩
      · rw [injectLoop, lawful.at_member e, Outcome.returns_bind, lawful.toString_string,
          Outcome.returns_bind, returns]
      · rw [Named, Named, List.mem_cons, and_or_left]

/-! ## Names and classes -/

/-- A class that was added has an entry with its name. -/
lemma exists_filter_eq {id : ServiceID} {name : String} (mem : id ∈ added.map Prod.fst)
    (named : id.getName = name) :
    ∃ e ∈ added.filter fun e => e.1.getName = name, e.1 = id := by
  obtain ⟨e, listed, rfl⟩ := List.mem_map.mp mem
  exact ⟨e, List.mem_filter.mpr ⟨listed, decide_eq_true named⟩, rfl⟩

/-- Entries with one key and no key twice are one entry. -/
lemma eq_singleton (id : ServiceID) {l : ServiceMap} (nodup : (l.map Prod.fst).Nodup)
    (one : ∀ e ∈ l, e.1 = id) (nonempty : l ≠ []) : ∃ e, l = [e] := by
  match l with
  | [] => exact absurd rfl nonempty
  | [e] => exact ⟨e, rfl⟩
  | e :: e' :: l =>
    have same : e.1 = e'.1 := (one e (by simp)).trans (one e' (by simp)).symm
    simp [same] at nodup

/-- If one service is added for each name that is wanted, then each listed name stands for one class. -/
lemma Injected.oneClass (grown : Grown (Named creators names) mgr.m_Services mgr'.m_Services added)
    (injected : Injected creators names mgr mgr') : OneClass creators names mgr := by
  obtain ⟨added', perm, -, counts⟩ := injected
  have same : added'.Perm added := (List.perm_append_right_iff mgr.m_Services).mp (perm.symm.trans grown.perm)
  have mem_added : ∀ creator ∈ creators, creator.id.getName ∈ names →
      creator.id ∉ mgr.m_Services.map Prod.fst → creator.id ∈ added'.map Prod.fst := by
    intro creator listed mem absent
    rw [(same.map Prod.fst).mem_iff, grown.mem_iff]
    exact ⟨⟨⟨creator, listed, rfl⟩, mem⟩, absent⟩
  intro name mem
  constructor
  · rintro has creator listed rfl
    by_contra absent
    obtain ⟨e, filtered, -⟩ := exists_filter_eq (mem_added creator listed mem absent) rfl
    rw [(counts _).2 fun wanted => wanted.2.2 has] at filtered
    cases filtered
  · intro has_not creator listed creator' listed' named named'
    have absent : ∀ id : ServiceID, id.getName = name → id ∉ mgr.m_Services.map Prod.fst :=
      fun id named present => has_not ⟨id, present, named⟩
    obtain ⟨e, one⟩ := (counts name).1 ⟨mem, ⟨creator, listed, named⟩, has_not⟩
    have is_e : ∀ creator ∈ creators, creator.id.getName = name → creator.id = e.1 := by
      intro creator listed named
      obtain ⟨e', filtered, e_id⟩ :=
        exists_filter_eq (mem_added creator listed (named ▸ mem) (absent _ named)) named
      rw [one, List.mem_singleton] at filtered
      rw [← e_id, filtered]
    rw [is_e creator listed named, is_e creator' listed' named']

/-- With one class for each name what was added is what should be injected. -/
lemma OneClass.injected (grown : Grown (Named creators names) mgr.m_Services mgr'.m_Services added)
    (one : OneClass creators names mgr) : Injected creators names mgr mgr' := by
  refine ⟨added, grown.perm, grown.service, fun name => ⟨?_, ?_⟩⟩
  · rintro ⟨mem, ⟨creator, listed, named⟩, has_not⟩
    have absent : creator.id ∉ mgr.m_Services.map Prod.fst :=
      fun present => has_not ⟨creator.id, present, named⟩
    obtain ⟨e, filtered, -⟩ := exists_filter_eq
      ((grown.mem_iff _).mpr ⟨⟨⟨creator, listed, rfl⟩, named ▸ mem⟩, absent⟩) named
    refine eq_singleton creator.id ?_ (fun e' mem' => ?_) (List.ne_nil_of_mem filtered)
    · exact grown.nodup.sublist (List.filter_sublist.map Prod.fst)
    · obtain ⟨in_added, named'⟩ := List.mem_filter.mp mem'
      obtain ⟨⟨⟨creator', listed', e_id⟩, -⟩, -⟩ := (grown.mem_iff e'.1).mp (List.mem_map_of_mem in_added)
      rw [← e_id]
      refine (one name mem).2 has_not creator' listed' creator listed ?_ named
      rw [e_id]
      exact of_decide_eq_true named'
  · intro not_wanted
    refine List.filter_eq_nil_iff.mpr fun e in_added named => not_wanted ?_
    obtain rfl := of_decide_eq_true named
    obtain ⟨⟨⟨creator, listed, e_id⟩, mem⟩, absent⟩ := (grown.mem_iff e.1).mp (List.mem_map_of_mem in_added)
    refine ⟨mem, ⟨creator, listed, congrArg RTTI.getName e_id⟩, fun has => absent ?_⟩
    rw [← e_id]
    exact (one _ mem).1 has creator listed (congrArg RTTI.getName e_id)

/-- Nothing is listed, and nothing is registered. -/
lemma injected_nil (creators : List Creator) (mgr : ServiceMgr) : Injected creators [] mgr mgr :=
  OneClass.injected (.none (by simp [Named])) (by simp [OneClass])

/-- A file that is not loaded is read like the number 0. -/
lemma injectService_not_loaded (lawful : lib.Lawful) (reg' : Registration) :
    injectService lib less creators (.onInit none) reg ≠ .returns reg' := by
  obtain ⟨mantissa, exponent, zero⟩ := lawful.ofInt 0
  rw [injectService, ConfigService.getAppConfig_onInit, Option.getD_none, zero,
    lawful.eqNullptr_eq_false (j := .number mantissa exponent) nofun, if_neg Bool.false_ne_true]
  exact lawful.atConst_absent rfl _ _

/-- A null configuration is given back unread. -/
lemma injectService_null (lawful : lib.Lawful) :
    injectService lib less creators (.onInit (some .null)) reg = .returns reg := by
  rw [injectService, ConfigService.getAppConfig_onInit, Option.getD_some, (lawful.eqNullptr .null).mpr rfl,
    if_pos rfl]

/-- Without the application's part the services are not injected. -/
lemma injectService_no_app (lawful : lib.Lawful) (other : j ≠ .null) (absent : j.member "XLNAppConfig" = none)
    (reg' : Registration) : injectService lib less creators (.onInit (some j)) reg ≠ .returns reg' := by
  rw [injectService, ConfigService.getAppConfig_onInit, Option.getD_some, lawful.eqNullptr_eq_false other,
    if_neg Bool.false_ne_true]
  exact lawful.atConst_absent absent _ _

/-- Without the application's part the configuration is not complete. -/
lemma not_complete_no_app (other : j ≠ .null) (absent : j.member "XLNAppConfig" = none) :
    ¬ Complete (some j) := by
  rintro (is_null | ⟨_, app, services, e, present, -⟩)
  · exact other (Option.some.inj is_null)
  · obtain rfl := Option.some.inj e
    rw [absent] at present
    cases present

/-- What is read of a configuration with an `XLNAppConfig`. -/
lemma injectService_app (lawful : lib.Lawful) (present : j.member "XLNAppConfig" = some app) :
    injectService lib less creators (.onInit (some j)) reg = (lib.atConst app "Services").bind fun services =>
      if lib.eqNullptr services then .returns reg
      else injectLoop lib less creators (lib.toList services) reg := by
  have other : j ≠ .null := by
    rintro rfl
    cases present
  rw [injectService, ConfigService.getAppConfig_onInit, Option.getD_some, lawful.eqNullptr_eq_false other,
    if_neg Bool.false_ne_true, lawful.atConst_member present, Outcome.returns_bind]

/-- Without a list of services the configuration is not complete. -/
lemma not_complete_no_services (present : j.member "XLNAppConfig" = some app)
    (absent : app.member "Services" = none) : ¬ Complete (some j) := by
  rintro (is_null | ⟨_, app', services, e, present', present_services⟩)
  · obtain rfl := Option.some.inj is_null
    cases present
  · obtain rfl := Option.some.inj e
    obtain rfl := Option.some.inj (present.symm.trans present')
    rw [absent] at present_services
    cases present_services

/-- For whatever loading the file gives, `InjectService` returns and registers one service for each name
    that is listed, has a creator and is not registered yet, and nothing else, if and only if the file was
    loaded and is complete and each listed name stands for one class. -/
theorem injectService_iff (lawful : lib.Lawful) (listed : Listed file names) :
    (∃ reg', injectService lib less creators (.onInit file) reg = .returns reg' ∧
      Injected creators names reg.mgr reg'.mgr) ↔ Complete file ∧ OneClass creators names reg.mgr := by
  cases listed with
  | not_loaded =>
    refine iff_of_false ?_ ?_
    · rintro ⟨reg', returns, -⟩
      exact injectService_not_loaded lawful reg' returns
    · rintro ⟨absurd | ⟨j, -, -, absurd, -⟩, -⟩ <;> cases absurd
  | @no_app j absent =>
    by_cases null : j = .null
    · subst null
      exact iff_of_true ⟨reg, injectService_null lawful, injected_nil creators reg.mgr⟩
        ⟨.inl rfl, by simp [OneClass]⟩
    · refine iff_of_false ?_ fun holds => not_complete_no_app null absent holds.1
      rintro ⟨reg', returns, -⟩
      exact injectService_no_app lawful null absent reg' returns
  | @no_services j app present absent =>
    refine iff_of_false ?_ fun holds => not_complete_no_services present absent holds.1
    rintro ⟨reg', returns, -⟩
    rw [injectService_app lawful present] at returns
    exact lawful.atConst_absent absent _ _ returns
  | @services j app elements names present array classes =>
    obtain ⟨reg', added, returns, grown⟩ := injectLoop_grown lawful less creators reg classes
    rw [injectService_app lawful present, lawful.atConst_member array, Outcome.returns_bind,
      lawful.eqNullptr_eq_false (j := .array elements) nofun, if_neg Bool.false_ne_true,
      lawful.toList_array, returns]
    constructor
    · rintro ⟨_, e, injected⟩
      obtain rfl := Outcome.returns.inj e
      exact ⟨.inr ⟨j, app, _, rfl, present, array⟩, injected.oneClass grown⟩
    · rintro ⟨-, one⟩
      exact ⟨reg', rfl, one.injected grown⟩

/-- A listed class with a creator is registered. -/
theorem injectService_iff_one :
    let creator : Creator :=
      ⟨.root 1 "MySQLService", fun n => ⟨n, .root 1 "MySQLService", []⟩, fun _ => rfl⟩
    let file : Json :=
      .object [("XLNAppConfig", .object [("Services", .array [.object [("Class", .string "MySQLService")]])])]
    let reg : Registration := ⟨.new 0, 0, []⟩
    ∃ reg', injectService .documented RTTI.less [creator] (.onInit (some file)) reg = .returns reg' ∧
      Injected [creator] ["MySQLService"] reg.mgr reg'.mgr := by
  intro creator file reg
  have listed : Listed (some file) ["MySQLService"] := .services rfl rfl rfl
  have one : OneClass [creator] ["MySQLService"] reg.mgr := by
    simp [OneClass, ServiceMgr.HasName, reg, ServiceMgr.new]
  exact (injectService_iff Nlohmann.documented_lawful listed).mpr ⟨.inr ⟨_, _, _, rfl, rfl, rfl⟩, one⟩

/-- Without the file `InjectService` throws, and with an empty object in it its behaviour is undefined. -/
theorem injectService_missing :
    Listed none [] ∧ Listed (some (.object [])) [] ∧
      ∀ less creators reg, injectService .documented less creators (.onInit none) reg = .throws ∧
        injectService .documented less creators (.onInit (some (.object []))) reg = .undefined :=
  ⟨.not_loaded, .no_app rfl, fun _ _ _ => ⟨rfl, rfl⟩⟩

end XLN
