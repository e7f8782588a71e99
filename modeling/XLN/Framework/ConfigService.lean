import Mathlib.Tactic.Common

/-!
# Configurations

`Core/Framework/ConfigService.h` and `.cpp`: the configurations that were loaded. The JSON library is the
parameter `Nlohmann`; `Lawful` states what its documentation says.
-/

namespace XLN

/-- A JSON value. A number is a mantissa and an exponent. -/
inductive Json where
  | null
  | boolean (b : Bool)
  | number (mantissa exponent : Int)
  | string (s : String)
  | array (elements : List Json)
  | object (members : List (String × Json))

/-- The value of a member of an object. -/
def Json.member : Json → String → Option Json
  | object members, key => (members.find? fun member => member.1 = key).map Prod.snd
  | _, _ => none

/-- What a call does. -/
inductive Outcome (α : Type) where
  | returns (a : α)
  | throws
  | undefined

def Outcome.bind {α β : Type} : Outcome α → (α → Outcome β) → Outcome β
  | returns a, f => f a
  | throws, _ => throws
  | undefined, _ => undefined

/-- What runs first has returned. -/
@[simp] lemma Outcome.returns_bind {α β : Type} (a : α) (f : α → Outcome β) : (returns a).bind f = f a := rfl

/-- What is used of `nlohmann::json`: a `json` from an `int`, `== nullptr`, `operator[]` with a string for
    a constant and for another value, the values from `begin` to `end`, and the conversion to a string. -/
structure Nlohmann where
  ofInt : Int → Json
  eqNullptr : Json → Bool
  atConst : Json → String → Outcome Json
  at_ : Json → String → Outcome Json
  toList : Json → List Json
  toString : Json → Outcome String

namespace Nlohmann

structure Lawful (lib : Nlohmann) : Prop where
  ofInt : ∀ n, ∃ mantissa exponent, lib.ofInt n = .number mantissa exponent
  eqNullptr : ∀ j, lib.eqNullptr j = true ↔ j = .null
  atConst_member : ∀ {j key v}, j.member key = some v → lib.atConst j key = .returns v
  atConst_missing : ∀ {members key}, (Json.object members).member key = none →
    lib.atConst (.object members) key = .undefined
  atConst_throws : ∀ {j key}, (∀ members, j ≠ .object members) → lib.atConst j key = .throws
  at_member : ∀ {j key v}, j.member key = some v → lib.at_ j key = .returns v
  toList_array : ∀ elements, lib.toList (.array elements) = elements
  toString_string : ∀ s, lib.toString (.string s) = .returns s

variable {lib : Nlohmann} {j : Json} {key : String}

/-- The constant `operator[]` never returns for a member that does not exist. -/
lemma Lawful.atConst_absent {α : Type} (lawful : lib.Lawful) (absent : j.member key = none)
    (f : Json → Outcome α) (a : α) : (lib.atConst j key).bind f ≠ .returns a := by
  by_cases object : ∃ members, j = .object members
  · obtain ⟨members, rfl⟩ := object
    rw [lawful.atConst_missing absent]
    nofun
  · rw [lawful.atConst_throws fun members e => object ⟨members, e⟩]
    nofun

/-- Only null equals null. -/
lemma Lawful.eqNullptr_eq_false (lawful : lib.Lawful) (other : j ≠ .null) : lib.eqNullptr j = false :=
  Bool.eq_false_iff.mpr (mt (lawful.eqNullptr j).mp other)

/-- A library that does what the documentation says. -/
def documented : Nlohmann where
  ofInt n := .number n 0
  eqNullptr
    | .null => true
    | _ => false
  atConst
    | .object members, key =>
      match (Json.object members).member key with
      | some v => .returns v
      | none => .undefined
    | _, _ => .throws
  at_
    | .object members, key => .returns (((Json.object members).member key).getD .null)
    | .null, _ => .returns .null
    | _, _ => .throws
  toList
    | .null => []
    | .array elements => elements
    | .object members => members.map Prod.snd
    | j => [j]
  toString
    | .string s => .returns s
    | _ => .throws

/-- The documented library follows the rules. -/
lemma documented_lawful : documented.Lawful where
  ofInt n := ⟨n, 0, rfl⟩
  eqNullptr j := by cases j <;> simp [documented]
  atConst_member := by
    intro j key v e
    cases j with
    | object members => simp only [documented, e]
    | _ => cases e
  atConst_missing := by
    intro members key e
    simp only [documented, e]
  atConst_throws := by
    intro j key no_object
    cases j with
    | object members => exact absurd rfl (no_object members)
    | _ => rfl
  at_member := by
    intro j key v e
    cases j with
    | object members => simp only [documented, e, Option.getD_some]
    | _ => cases e
  toList_array _ := rfl
  toString_string _ := rfl

end Nlohmann

/-- `ConfigService`. -/
structure ConfigService where
  m_Configs : List (String × Json)

namespace ConfigService

/-- `ConfigService::AddConfiguration`. `parsed` is what the file contains, unless it is missing or its text
    can not be parsed; the exception is caught. -/
def addConfiguration (key : String) (parsed : Option Json) (config : ConfigService) : ConfigService :=
  match parsed with
  | none => config
  | some json =>
    -- `insert` keeps an entry that exists
    if (config.m_Configs.find? fun entry => entry.1 = key).isSome then config
    else { config with m_Configs := (key, json) :: config.m_Configs }

/-- `ConfigService::OnInit` of a new service. -/
def onInit (parsed : Option Json) : ConfigService :=
  addConfiguration "XLN" parsed { m_Configs := [] }

/-- `ConfigService::GetConfig`. -/
def getConfig (lib : Nlohmann) (key : String) (config : ConfigService) : Json :=
  match config.m_Configs.find? fun entry => entry.1 = key with
  | some entry => entry.2
  | none => lib.ofInt 0

/-- `ConfigService::GetAppConfig`. -/
def getAppConfig (lib : Nlohmann) (config : ConfigService) : Json :=
  getConfig lib "XLN" config

/-- A configuration that was not loaded is the number 0, and not null. -/
lemma getAppConfig_onInit (lib : Nlohmann) (parsed : Option Json) :
    getAppConfig lib (onInit parsed) = parsed.getD (lib.ofInt 0) := by
  cases parsed <;> rfl

end ConfigService
end XLN
