import Mathlib.Data.List.Infix
import XLN.Lib.LexicalPath

/-!
# Directories of the platform

`Core/Platform/PlatformService.cpp`: `relativeTo` climbs from `from` to what it shares with `to`, and its last
loop goes on to `to`. A path is the list of the components that its iterators go through, and `/=` adds
components at the end. `MakeDirectory` makes an absolute path relative to the root first, and what it creates
is found where the path says (`makeDirectory_absolute`).
-/

namespace XLN
open LexicalPath

abbrev Path := List String

/-- `.` and `..`. -/
def dots : Dots String where
  dot := "."
  up := ".."
  ne := by decide

namespace PlatformService

/-- The first loop of `relativeTo`: what is left of both paths where they differ. -/
def shareLoop : Path → Path → Path × Path
  | from_ :: fromIter, to_ :: toIter =>
    if to_ = from_ then shareLoop fromIter toIter else (from_ :: fromIter, to_ :: toIter)
  | fromIter, toIter => (fromIter, toIter)

/-- The second loop of `relativeTo`. -/
def climbLoop : Path → Path → Path
  | [], finalPath => finalPath
  | component :: fromIter, finalPath =>
    if component = "." then finalPath else climbLoop fromIter (finalPath ++ [".."])

/-- The third loop of `relativeTo`. -/
def appendLoop : Path → Path → Path
  | [], finalPath => finalPath
  | component :: toIter, finalPath => appendLoop toIter (finalPath ++ [component])

def relativeTo (from_ to_ : Path) : Path :=
  let (fromIter, toIter) := shareLoop from_ to_
  appendLoop toIter (climbLoop fromIter [])

/-- A path without `.` and `..`, except that its last component may be `.`. -/
inductive FinalDot : Path → Prop
  | nil : FinalDot []
  | dot : FinalDot ["."]
  | cons {name : String} {path : Path} (plain : dots.Plain name) (rest : FinalDot path) :
    FinalDot (name :: path)

variable {from_ to_ path rest shared root names : Path}

/-! ## The loops -/

/-- What is shared is the begin of both paths. -/
lemma shareLoop_eq (from_ to_ : Path) :
    ∃ shared, from_ = shared ++ (shareLoop from_ to_).1 ∧ to_ = shared ++ (shareLoop from_ to_).2 := by
  fun_induction shareLoop from_ to_ with
  | case1 fromIter component toIter ih =>
    obtain ⟨shared, e, e'⟩ := ih
    exact ⟨component :: shared, congrArg (component :: ·) e, congrArg (component :: ·) e'⟩
  | case2 | case3 => exact ⟨[], rfl, rfl⟩

/-- The second loop appends the rest. -/
lemma appendLoop_eq (toIter finalPath : Path) : appendLoop toIter finalPath = finalPath ++ toIter := by
  induction toIter generalizing finalPath with
  | nil => exact (List.append_nil finalPath).symm
  | cons component toIter ih => rw [appendLoop, ih, List.append_assoc, List.singleton_append]

/-- One step up for each name. -/
lemma climbLoop_names (plain : ∀ c ∈ names, dots.Plain c) (rest finalPath : Path) :
    climbLoop (names ++ rest) finalPath =
      climbLoop rest (finalPath ++ List.replicate names.length "..") := by
  induction names generalizing finalPath with
  | nil => rw [List.nil_append, List.length_nil, List.replicate_zero, List.append_nil]
  | cons name names ih =>
    have named : name ≠ "." := (plain name List.mem_cons_self).1
    rw [List.cons_append, climbLoop, if_neg named, ih fun c mem => plain c (List.mem_cons_of_mem name mem),
      List.append_assoc, List.singleton_append, List.length_cons, List.replicate_succ]

/-- The rest of a path ends the same way. -/
lemma FinalDot.tail {component : String} (final : FinalDot (component :: path)) : FinalDot path := by
  cases final with
  | dot => exact .nil
  | cons _ rest => exact rest

/-- A later part of a path ends the same way. -/
lemma FinalDot.of_append (final : FinalDot (shared ++ rest)) : FinalDot rest := by
  induction shared with
  | nil => exact final
  | cons component shared ih => exact ih final.tail

/-- The names, and the dot that may follow them. -/
lemma FinalDot.exists_names (final : FinalDot path) :
    ∃ names, (∀ c ∈ names, dots.Plain c) ∧ (path = names ∨ path = names ++ ["."]) := by
  induction final with
  | nil => exact ⟨[], by simp, .inl rfl⟩
  | dot => exact ⟨[], by simp, .inr rfl⟩
  | @cons name path plain _ ih =>
    obtain ⟨names, plain', e⟩ := ih
    refine ⟨name :: names, List.forall_mem_cons.mpr ⟨plain, plain'⟩, ?_⟩
    exact e.imp (congrArg (name :: ·)) (congrArg (name :: ·))

/-- `relativeTo` climbs out of the names that `from_` has after what both share, and goes on to `to_`. -/
lemma relativeTo_eq (final : FinalDot from_) (to_ : Path) :
    ∃ shared names more, (∀ c ∈ names, dots.Plain c) ∧
      (from_ = shared ++ names ∨ from_ = shared ++ names ++ ["."]) ∧ to_ = shared ++ more ∧
      relativeTo from_ to_ = List.replicate names.length ".." ++ more := by
  obtain ⟨shared, e, e'⟩ := shareLoop_eq from_ to_
  rw [e] at final
  obtain ⟨names, plain, last⟩ := final.of_append.exists_names
  refine ⟨shared, names, (shareLoop from_ to_).2, plain, ?_, e', ?_⟩
  · rw [List.append_assoc]
    exact last.imp (fun h => e.trans (congrArg (shared ++ ·) h)) fun h => e.trans (congrArg (shared ++ ·) h)
  · have climbed : climbLoop (shareLoop from_ to_).1 [] = List.replicate names.length ".." := by
      rcases last with h | h
      · rw [h, ← List.append_nil names, climbLoop_names plain, climbLoop, List.append_nil, List.nil_append]
      · rw [h, climbLoop_names plain, climbLoop, if_pos rfl, List.nil_append]
    calc relativeTo from_ to_
      _ = climbLoop (shareLoop from_ to_).1 [] ++ (shareLoop from_ to_).2 := appendLoop_eq _ _
      _ = List.replicate names.length ".." ++ (shareLoop from_ to_).2 := by rw [climbed]

/-- Components that both paths start with change nothing. -/
lemma relativeTo_append (root from_ to_ : Path) :
    relativeTo (root ++ from_) (root ++ to_) = relativeTo from_ to_ := by
  have same : shareLoop (root ++ from_) (root ++ to_) = shareLoop from_ to_ := by
    induction root with
    | nil => rfl
    | cons component root ih => rw [List.cons_append, List.cons_append, shareLoop, if_pos rfl, ih]
  rw [relativeTo, same, relativeTo]

/-- The dot at the end of a path does not matter to what is added. -/
lemma normal_append_final (last : path = names ∨ path = names ++ ["."]) (rest : Path) :
    dots.normal (path ++ rest) = dots.normal (names ++ rest) := by
  rcases last with rfl | rfl
  · rfl
  · rw [List.append_assoc, List.singleton_append]
    exact Dots.normal_dot

/-- The path from `from_` leads to `to_`, also where `to_` has dots itself. -/
lemma normal_append_relativeTo (final : FinalDot from_) (to_ : Path) :
    dots.normal (from_ ++ relativeTo from_ to_) = dots.normal to_ := by
  obtain ⟨shared, names, more, plain, last, rfl, e⟩ := relativeTo_eq final to_
  calc dots.normal (from_ ++ relativeTo from_ (shared ++ more))
    _ = dots.normal (shared ++ names ++ (List.replicate names.length ".." ++ more)) := by
      rw [normal_append_final last, e]
    _ = dots.normal (shared ++ more) := by
      rw [← List.append_assoc]
      exact Dots.normal_climb plain

/-- Whatever both paths start with, the root of absolute paths for one, stands all along the way. -/
theorem root_stands (final : FinalDot (root ++ from_)) (plain : ∀ c ∈ root ++ to_, dots.Plain c) {way : Path}
    (along : way <+: relativeTo (root ++ from_) (root ++ to_)) :
    root <+: dots.normal (root ++ from_ ++ way) := by
  obtain ⟨shared, names, more, plain', last, rfl, e⟩ := relativeTo_eq final.of_append to_
  rw [relativeTo_append, e] at along
  obtain ⟨k, rfl⟩ : ∃ k, way = (List.replicate names.length ".." ++ more).take k :=
    ⟨way.length, List.prefix_iff_eq_take.mp along⟩
  rw [List.take_append, List.take_replicate, List.length_replicate]
  -- what is left of the names after the steps up so far, and what has been added
  generalize e_left : names.take (names.length - min k names.length) = left
  generalize e_added : more.take (k - names.length) = added
  have last' : root ++ from_ = root ++ shared ++ names ∨
      root ++ from_ = root ++ shared ++ names ++ ["."] := by
    simpa only [List.append_assoc, List.append_cancel_left_eq] using last
  have plain_left : ∀ c ∈ left, dots.Plain c := fun c mem => plain' c (List.mem_of_mem_take (e_left ▸ mem))
  have plain_added : ∀ c ∈ added, dots.Plain c := fun c mem =>
    plain c (List.mem_append_right root (List.mem_append_right shared (List.mem_of_mem_take (e_added ▸ mem))))
  have plain_here : ∀ c ∈ root ++ shared ++ left ++ added, dots.Plain c := by
    simp only [List.mem_append, or_imp, forall_and] at plain plain_left plain_added ⊢
    exact ⟨⟨⟨plain.1, plain.2.1⟩, plain_left⟩, plain_added⟩
  have here : dots.normal (root ++ from_ ++ (List.replicate (min k names.length) ".." ++ added)) =
      root ++ shared ++ left ++ added := by
    rw [normal_append_final last', ← List.append_assoc, ← Dots.normal_eq_self plain_here, ← e_left]
    exact Dots.normal_climb_take plain' (Nat.min_le_right k names.length)
  rw [here, List.append_assoc, List.append_assoc]
  exact List.prefix_append root _

/-- After one step up the root stands, although the way goes on to another directory. -/
theorem root_stands_log : ["/", "srv"] <+: dots.normal (["/", "srv"] ++ ["app", "."] ++ [".."]) := by
  have final : FinalDot (["/", "srv"] ++ ["app", "."]) :=
    .cons (by decide) (.cons (by decide) (.cons (by decide) .dot))
  have plain : ∀ c ∈ ["/", "srv"] ++ ["log"], dots.Plain c := by decide
  have along : [".."] <+: relativeTo (["/", "srv"] ++ ["app", "."]) (["/", "srv"] ++ ["log"]) := by decide
  exact root_stands final plain along

/-! ## Making directories -/

/-- A run on a file system, or a `filesystem_error` with its text. -/
abbrev Fs (σ : Type) := EStateM String σ

/-- The functions of `boost::filesystem` that are called, and `XLN_LOGW`. -/
structure FileSystem (σ : Type) where
  exists_ : σ → Path → Except String Bool
  remove_all : Path → Fs σ Unit
  create_directories : Path → Fs σ Bool
  logw : String → σ → σ

/-- The file system resolves `.` and `..` by the path alone, and a directory that has been created exists. -/
structure FileSystem.Lawful {σ : Type} (fs : FileSystem σ) : Prop where
  exists_congr : ∀ {p q}, dots.normal p = dots.normal q → ∀ s, fs.exists_ s p = fs.exists_ s q
  remove_congr : ∀ {p q}, dots.normal p = dots.normal q → fs.remove_all p = fs.remove_all q
  create_congr : ∀ {p q}, dots.normal p = dots.normal q → fs.create_directories p = fs.create_directories q
  created : ∀ {p s b s'}, fs.create_directories p s = .ok b s' → fs.exists_ s' p = .ok true

variable {σ : Type} (fs : FileSystem σ)

/-- `boost::filesystem::exists` as a run. -/
def FileSystem.query (path : Path) : Fs σ Bool := fun s =>
  match fs.exists_ s path with
  | .ok b => .ok b s
  | .error err => .error err s

/-- `path::is_relative`: there is no root directory. -/
def isRelative (path : Path) : Bool :=
  !path.contains "/"

/-- `PlatformService::IsPathExist`; `rootPath` is what `GetWritableRootPath` returns. -/
def isPathExist (rootPath subPath : Path) : Fs σ Bool :=
  if !isRelative subPath then fs.query subPath else fs.query (rootPath ++ subPath)

/-- The `try` block of `MakeDirectory`. -/
def tryCreate (dirPath : Path) : Fs σ Bool :=
  tryCatch (fs.create_directories dirPath) fun err => do
    modify (fs.logw err)
    return false

/-- The rest of `MakeDirectory`, once it has a path. -/
def makeDirPath (dirPath : Path) (clearOnExist : Bool) : Fs σ Bool := do
  if ← fs.query dirPath then
    if !clearOnExist then
      return true
    else
      fs.remove_all dirPath
  tryCreate fs dirPath

/-- `PlatformService::MakeDirectory`. -/
def makeDirectory (rootPath path : Path) (clearOnExist : Bool) : Fs σ Bool :=
  let subPath := if !isRelative path then relativeTo rootPath path else path
  if subPath ≠ [] then makeDirPath fs (rootPath ++ subPath) clearOnExist else pure false

variable {fs} {rootPath p q : Path} {clearOnExist : Bool} {s s' : σ}

/-- What runs first has returned. -/
lemma bind_ok {α β : Type} {x : Fs σ α} {f : α → Fs σ β} {b : β} (run : (x >>= f) s = .ok b s') :
    ∃ a t, x s = .ok a t ∧ f a t = .ok b s' := by
  change EStateM.bind x f s = .ok b s' at run
  unfold EStateM.bind at run
  split at run
  next a t e => exact ⟨a, t, e, run⟩
  next => cases run

/-- The error of a creation that fails is caught, and `false` is returned. -/
lemma exists_of_tryCreate (lawful : fs.Lawful) (run : tryCreate fs p s = .ok true s') :
    fs.exists_ s' p = .ok true := by
  change EStateM.tryCatch _ _ s = _ at run
  unfold EStateM.tryCatch at run
  cases e : fs.create_directories p s with
  | ok b t =>
    rw [e] at run
    cases run
    exact lawful.created e
  | error err t =>
    rw [e] at run
    cases run

/-- A question changes nothing. -/
lemma query_eq_ok {b : Bool} (run : fs.query p s = .ok b s') : s' = s ∧ fs.exists_ s p = .ok b := by
  unfold FileSystem.query at run
  split at run
  next e =>
    cases run
    exact ⟨rfl, e⟩
  next => cases run

/-- The path exists once `true` has been returned. -/
lemma exists_of_makeDirPath (lawful : fs.Lawful) (run : makeDirPath fs p clearOnExist s = .ok true s') :
    fs.exists_ s' p = .ok true := by
  unfold makeDirPath at run
  obtain ⟨found, t, e, rest⟩ := bind_ok run
  cases found with
  | false => exact exists_of_tryCreate lawful rest
  | true =>
    cases clearOnExist with
    | false =>
      cases rest
      obtain ⟨rfl, there⟩ := query_eq_ok e
      exact there
    | true =>
      obtain ⟨_, _, -, rest⟩ := bind_ok rest
      exact exists_of_tryCreate lawful rest

/-- `IsPathExist` and `MakeDirectory` mean one directory by a path. -/
theorem isPathExist_of_makeDirectory (lawful : fs.Lawful) (final : FinalDot rootPath)
    (run : makeDirectory fs rootPath path clearOnExist s = .ok true s') :
    isPathExist fs rootPath path s' = .ok true s' := by
  have found {p q : Path} (made : fs.exists_ s' q = .ok true) (e : dots.normal q = dots.normal p) :
      fs.query p s' = .ok true s' := by
    rw [FileSystem.query, ← lawful.exists_congr e, made]
  by_cases nil : (if !isRelative path then relativeTo rootPath path else path) = []
  · rw [makeDirectory, if_neg (not_not.mpr nil)] at run
    cases run
  · rw [makeDirectory, if_pos nil] at run
    have made := exists_of_makeDirPath lawful run
    cases absolute : isRelative path with
    | false =>
      rw [absolute, Bool.not_false, if_pos rfl] at made
      rw [isPathExist, absolute, Bool.not_false, if_pos rfl]
      exact found made (normal_append_relativeTo final path)
    | true =>
      rw [absolute, Bool.not_true, if_neg Bool.false_ne_true] at made
      rw [isPathExist, absolute, Bool.not_true, if_neg Bool.false_ne_true]
      exact found made rfl

def removeBelow (dir : Path) : Fs (List Path) Unit :=
  modify fun dirs => dirs.filter fun below => !dir.isPrefixOf below

def addDir (dir : Path) : Fs (List Path) Bool :=
  modifyGet fun dirs => (dir ∉ dirs, dir.inits ++ dirs)

/-- A file system in memory: the normal forms of the directories. -/
def memory : FileSystem (List Path) where
  exists_ dirs path := .ok (dots.normal path ∈ dirs)
  remove_all path := removeBelow (dots.normal path)
  create_directories path := addDir (dots.normal path)
  logw _ dirs := dirs

end PlatformService

end XLN
