import Mathlib.Data.List.Dedup
import Mathlib.Data.List.Perm.Basic
import Mathlib.Tactic.Common

/-!
# The command line

The parser takes options and their values in any order, each option once, and has no effect outside.
A command line that is accepted is exactly a list of options with values, or such a list with a
request for help after it (`parseCli_eq_some_iff`), and the order of the list does not matter.

The arguments are those after the name of the program; a null pointer is read as the empty string.
-/

set_option autoImplicit false

namespace Rvemu

inductive ImageFormat
  | raw
  deriving DecidableEq, Repr

@[ext] structure CliOptions where
  biosPath : String := ""
  kernelPath : String := ""
  diskPath : String := ""
  net : String := "none"
  biosFormat : ImageFormat := .raw
  kernelFormat : ImageFormat := .raw
  help : Bool := false
  deriving DecidableEq, Repr

structure CliParseResult where
  options : Option CliOptions := none
  error : String := ""
  deriving DecidableEq, Repr

def parseImageFormat (value : String) : Option ImageFormat :=
  if value = "raw" then some .raw else none

def cliUsage (programName : String) : String :=
  let name := if programName = "" then "riscv_vector_emulator" else programName
  "用法：\n" ++ "  " ++ name
    ++ " --bios artifacts/firmware/fw_jump.bin --kernel artifacts/kernel/Image "
    ++ "--disk artifacts/disk/rootfs.ext4 [--net none|tap0]\n"
    ++ "可选：--bios-format raw --kernel-format raw\n"

namespace CliOptions

/-- Take over the value of one option. -/
def set (o : CliOptions) (argument value : String) : Except String CliOptions :=
  if argument = "--bios" then .ok { o with biosPath := value }
  else if argument = "--kernel" then .ok { o with kernelPath := value }
  else if argument = "--disk" then .ok { o with diskPath := value }
  else if argument = "--net" then .ok { o with net := value }
  else if argument = "--bios-format" then
    match parseImageFormat value with
    | some format => .ok { o with biosFormat := format }
    | none => .error ("不支持的 BIOS 格式：" ++ value)
  else if argument = "--kernel-format" then
    match parseImageFormat value with
    | some format => .ok { o with kernelFormat := format }
    | none => .error ("不支持的 kernel 格式：" ++ value)
  else .error ("未知参数：" ++ argument)

/-- The checks after the last argument. -/
def finish (o : CliOptions) : CliParseResult :=
  if o.biosPath = "" then { error := "缺少必需参数：--bios" }
  else if o.kernelPath = "" then { error := "缺少必需参数：--kernel" }
  else if o.diskPath = "" then { error := "缺少必需参数：--disk" }
  else if o.net = "" then { error := "--net 不允许为空；省略该参数表示 none" }
  else { options := some o }

end CliOptions

/-- Does the argument start with two dashes? -/
def isOption (argument : String) : Bool := argument.toList.take 2 == ['-', '-']

def isHelp (argument : String) : Bool := argument == "--help" || argument == "-h"

/-- The loop, after the options in `seen`. -/
def parseCliFrom (o : CliOptions) (seen : List String) : List String → CliParseResult
  | [] => o.finish
  | [argument] =>
    if isHelp argument then { options := some { o with help := true } }
    else if !isOption argument then { error := "未知位置参数：" ++ argument }
    else if seen.contains argument then { error := "重复参数：" ++ argument }
    else { error := "参数缺少非空值：" ++ argument }
  | argument :: value :: rest =>
    if isHelp argument then { options := some { o with help := true } }
    else if !isOption argument then { error := "未知位置参数：" ++ argument }
    else if seen.contains argument then { error := "重复参数：" ++ argument }
    else if value = "" then { error := "参数缺少非空值：" ++ argument }
    else
      match o.set argument value with
      | .error error => { error }
      | .ok o => parseCliFrom o (argument :: seen) rest

def parseCli (arguments : List String) : CliParseResult := parseCliFrom {} [] arguments

/-! ## Lists of options -/

namespace CliOptions

/-- An option and a value that it takes. -/
def Takes (p : String × String) : Prop :=
  p.2 ≠ "" ∧ (p.1 ∈ ["--bios", "--kernel", "--disk", "--net"] ∨
    p.1 ∈ ["--bios-format", "--kernel-format"] ∧ p.2 = "raw")

/-- The arguments that give the options their values. -/
def arguments (pairs : List (String × String)) : List String := pairs.flatMap fun p ↦ [p.1, p.2]

/-- The value of an option in the list. -/
def valueOf (name default : String) (pairs : List (String × String)) : String :=
  ((pairs.find? fun p ↦ p.1 == name).map (·.2)).getD default

/-- What a list of options says. -/
def ofPairs (pairs : List (String × String)) : CliOptions where
  biosPath := valueOf "--bios" "" pairs
  kernelPath := valueOf "--kernel" "" pairs
  diskPath := valueOf "--disk" "" pairs
  net := valueOf "--net" "none" pairs

/-- Every option takes its value and is there once. -/
structure WellFormed (pairs : List (String × String)) : Prop where
  takes : ∀ p ∈ pairs, Takes p
  nodup : (pairs.map (·.1)).Nodup

/-- The options that cannot be left out are there. -/
def Complete (pairs : List (String × String)) : Prop :=
  ∀ name ∈ ["--bios", "--kernel", "--disk"], name ∈ pairs.map (·.1)

/-- What the loop makes of one option. -/
def apply (o : CliOptions) (p : String × String) : CliOptions :=
  match o.set p.1 p.2 with
  | .ok o => o
  | .error _ => o

section Set

variable {o o' : CliOptions} {argument value : String}

/-- An option that takes its value is set. -/
theorem set_of_takes (h : Takes (argument, value)) : o.set argument value =
    .ok (o.apply (argument, value)) := by
  obtain ⟨-, hname | ⟨hname, hraw⟩⟩ := h
  · simp only [List.mem_cons, List.not_mem_nil, or_false] at hname
    rcases hname with rfl | rfl | rfl | rfl <;> rfl
  · obtain rfl : value = "raw" := hraw
    simp only [List.mem_cons, List.not_mem_nil, or_false] at hname
    rcases hname with rfl | rfl <;> rfl

theorem takes_of_set (h : o.set argument value = .ok o') (hvalue : value ≠ "") :
    Takes (argument, value) := by
  refine ⟨hvalue, ?_⟩
  have hformat : parseImageFormat value = none ∨ value = "raw" := by
    rw [parseImageFormat]
    split
    · next hraw => exact Or.inr hraw
    · exact Or.inl rfl
  rw [set] at h
  by_cases hplain : argument ∈ ["--bios", "--kernel", "--disk", "--net"]
  · exact Or.inl hplain
  · simp only [List.mem_cons, List.not_mem_nil, or_false, not_or] at hplain
    obtain ⟨hbios, hkernel, hdisk, hnet⟩ := hplain
    rw [if_neg hbios, if_neg hkernel, if_neg hdisk, if_neg hnet] at h
    refine Or.inr ?_
    split at h
    · next hname =>
      refine ⟨by simp [hname], hformat.resolve_left fun hnone ↦ ?_⟩
      rw [hnone] at h
      cases h
    · split at h
      · next hname =>
        refine ⟨by simp [hname], hformat.resolve_left fun hnone ↦ ?_⟩
        rw [hnone] at h
        cases h
      · cases h

/-- An option that takes a value starts with dashes and is not a request for help. -/
theorem Takes.isOption (h : Takes (argument, value)) :
    isOption argument = true ∧ isHelp argument = false := by
  have hall : ∀ name ∈ ["--bios", "--kernel", "--disk", "--net", "--bios-format",
      "--kernel-format"], Rvemu.isOption name = true ∧ isHelp name = false := by decide
  refine hall argument ?_
  obtain ⟨-, hname | ⟨hname, -⟩⟩ := h
  · exact List.mem_append_left ["--bios-format", "--kernel-format"] hname
  · exact List.mem_append_right ["--bios", "--kernel", "--disk", "--net"] hname

end Set

/-! ## The values -/

theorem valueOf_of_not_mem {name default : String} {pairs : List (String × String)}
    (h : name ∉ pairs.map (·.1)) : valueOf name default pairs = default := by
  have hnone : (pairs.find? fun p ↦ p.1 == name) = none := by
    refine List.find?_eq_none.2 fun p hp hname ↦ h ?_
    exact List.mem_map.2 ⟨p, hp, beq_iff_eq.1 hname⟩
  rw [valueOf, hnone]
  rfl

theorem valueOf_cons (name default : String) (p : String × String)
    (pairs : List (String × String)) : valueOf name default (p :: pairs) =
      if p.1 = name then p.2 else valueOf name default pairs := by
  rw [valueOf, valueOf, List.find?_cons]
  by_cases h : p.1 = name
  · rw [if_pos h, beq_iff_eq.2 h]
    rfl
  · rw [if_neg h, beq_eq_false_iff_ne.2 h]

/-- A field that one option sets has the value of that option. -/
theorem foldl_apply {name : String} (f : CliOptions → String)
    (hf : ∀ o p, Takes p → f (apply o p) = if p.1 = name then p.2 else f o)
    {pairs : List (String × String)} (h : WellFormed pairs) (o : CliOptions) :
    f (pairs.foldl apply o) = valueOf name (f o) pairs := by
  induction pairs generalizing o with
  | nil => rfl
  | cons p rest ih =>
    have hnodup := List.nodup_cons.1 h.nodup
    have hrest : WellFormed rest :=
      ⟨fun q hq ↦ h.takes q (List.mem_cons_of_mem _ hq), hnodup.2⟩
    rw [List.foldl_cons, ih hrest, hf o p (h.takes p List.mem_cons_self), valueOf_cons]
    split
    · next hname => rw [valueOf_of_not_mem (hname ▸ hnodup.1)]
    · rfl

/-- What the loop makes of a list of options is what the list says. -/
theorem foldl_apply_eq {pairs : List (String × String)} (h : WellFormed pairs) :
    pairs.foldl apply {} = ofPairs pairs := by
  have happly (o : CliOptions) {p : String × String} (hp : Takes p) :
      (apply o p).biosPath = (if p.1 = "--bios" then p.2 else o.biosPath) ∧
      (apply o p).kernelPath = (if p.1 = "--kernel" then p.2 else o.kernelPath) ∧
      (apply o p).diskPath = (if p.1 = "--disk" then p.2 else o.diskPath) ∧
      (apply o p).net = (if p.1 = "--net" then p.2 else o.net) ∧
      (apply o p).help = o.help := by
    obtain ⟨argument, value⟩ := p
    obtain ⟨-, hname | ⟨hname, hraw⟩⟩ := hp
    · simp only [List.mem_cons, List.not_mem_nil, or_false] at hname
      rcases hname with rfl | rfl | rfl | rfl <;> exact ⟨rfl, rfl, rfl, rfl, rfl⟩
    · obtain rfl : value = "raw" := hraw
      simp only [List.mem_cons, List.not_mem_nil, or_false] at hname
      rcases hname with rfl | rfl <;> exact ⟨rfl, rfl, rfl, rfl, rfl⟩
  have hhelp (pairs : List (String × String)) (hpairs : ∀ p ∈ pairs, Takes p) (o : CliOptions) :
      (pairs.foldl apply o).help = o.help := by
    induction pairs generalizing o with
    | nil => rfl
    | cons p rest ih =>
      rw [List.foldl_cons, ih fun q hq ↦ hpairs q (List.mem_cons_of_mem _ hq)]
      exact (happly o (hpairs p List.mem_cons_self)).2.2.2.2
  have hformat (f f' : ImageFormat) : f = f' := by cases f; cases f'; rfl
  exact CliOptions.ext (foldl_apply (·.biosPath) (fun o _ hp ↦ (happly o hp).1) h {})
    (foldl_apply (·.kernelPath) (fun o _ hp ↦ (happly o hp).2.1) h {})
    (foldl_apply (·.diskPath) (fun o _ hp ↦ (happly o hp).2.2.1) h {})
    (foldl_apply (·.net) (fun o _ hp ↦ (happly o hp).2.2.2.1) h {}) (hformat _ _) (hformat _ _)
    (hhelp pairs h.takes {})

/-- In a list without repetitions the place of an option does not matter. -/
theorem valueOf_perm {pairs pairs' : List (String × String)} (h : pairs.Perm pairs')
    (hnodup : (pairs.map (·.1)).Nodup) (name default : String) :
    valueOf name default pairs = valueOf name default pairs' := by
  induction h with
  | nil => rfl
  | cons p _ ih =>
    rw [valueOf_cons, valueOf_cons, ih (List.nodup_cons.1 hnodup).2]
  | swap p q rest =>
    simp only [valueOf_cons]
    have hne : q.1 ≠ p.1 := fun heq ↦
      (List.nodup_cons.1 hnodup).1 (List.mem_map.2 ⟨p, List.mem_cons_self, heq.symm⟩)
    split
    · next hq => rw [if_neg fun hp ↦ hne (hq.trans hp.symm)]
    · rfl
  | trans h₁ _ ih₁ ih₂ =>
    exact (ih₁ hnodup).trans (ih₂ ((h₁.map _).nodup_iff.1 hnodup))

/-! ## The loop -/

/-- The loop goes through options that take their values. -/
theorem parseCliFrom_arguments {pairs : List (String × String)} (h : WellFormed pairs)
    (o : CliOptions) (seen : List String) (hseen : ∀ p ∈ pairs, p.1 ∉ seen)
    (rest : List String) :
    ∃ seen', (∀ name, name ∈ seen' ↔ name ∈ pairs.map (·.1) ∨ name ∈ seen) ∧
      parseCliFrom o seen (arguments pairs ++ rest) =
        parseCliFrom (pairs.foldl apply o) seen' rest := by
  induction pairs generalizing o seen with
  | nil => exact ⟨seen, fun name ↦ by simp, rfl⟩
  | cons p pairs ih =>
    obtain ⟨argument, value⟩ := p
    have hnodup := List.nodup_cons.1 h.nodup
    have htakes := h.takes _ List.mem_cons_self
    obtain ⟨hoption, hhelp⟩ := htakes.isOption
    have hnew : seen.contains argument = false := by
      rw [Bool.eq_false_iff, ne_eq, List.contains_iff_mem]
      exact hseen _ List.mem_cons_self
    obtain ⟨seen', hmem, hrest⟩ := ih
      ⟨fun q hq ↦ h.takes q (List.mem_cons_of_mem _ hq), hnodup.2⟩ (o.apply (argument, value))
      (argument :: seen) fun q hq hin ↦ by
        rcases List.mem_cons.1 hin with heq | hin
        · exact hnodup.1 (List.mem_map.2 ⟨q, hq, heq⟩)
        · exact hseen q (List.mem_cons_of_mem _ hq) hin
    refine ⟨seen', fun name ↦ ?_, ?_⟩
    · rw [hmem, List.map_cons, List.mem_cons, List.mem_cons]
      tauto
    · show parseCliFrom o seen (argument :: value :: (arguments pairs ++ rest)) = _
      rw [parseCliFrom, hhelp, hoption, hnew, set_of_takes htakes]
      simp only [Bool.false_eq_true, if_false, Bool.not_true, htakes.1]
      exact hrest

/-- What the loop accepts is a list of options, and perhaps a request for help. -/
theorem arguments_of_parseCliFrom (args : List String) {o o' : CliOptions} {seen : List String}
    (h : (parseCliFrom o seen args).options = some o') :
    ∃ pairs, WellFormed pairs ∧ (∀ p ∈ pairs, p.1 ∉ seen) ∧
      (args = arguments pairs ∧ (pairs.foldl apply o).finish.options = some o' ∨
        ∃ help rest, isHelp help = true ∧ args = arguments pairs ++ help :: rest ∧
          o' = { pairs.foldl apply o with help := true }) := by
  have hempty : WellFormed [] := ⟨fun _ hp ↦ absurd hp List.not_mem_nil, List.nodup_nil⟩
  fun_induction parseCliFrom o seen args with
  | case1 o seen =>
    exact ⟨[], hempty, fun _ hp ↦ absurd hp List.not_mem_nil, Or.inl ⟨rfl, h⟩⟩
  | case2 o seen argument hhelp =>
    obtain rfl := Option.some.inj h
    exact ⟨[], hempty, fun _ hp ↦ absurd hp List.not_mem_nil,
      Or.inr ⟨argument, [], hhelp, rfl, rfl⟩⟩
  | case3 | case4 | case5 => cases h
  | case6 o seen argument value rest hhelp =>
    obtain rfl := Option.some.inj h
    exact ⟨[], hempty, fun _ hp ↦ absurd hp List.not_mem_nil,
      Or.inr ⟨argument, value :: rest, hhelp, rfl, rfl⟩⟩
  | case7 | case8 | case9 | case10 => cases h
  | case11 o seen argument value rest hhelp hoption hnew hvalue next hset ih =>
    obtain ⟨pairs, hformed, hseen, hargs⟩ := ih h
    have htakes := takes_of_set hset hvalue
    have hnext : next = o.apply (argument, value) := by
      rw [set_of_takes htakes] at hset
      exact (Except.ok.inj hset).symm
    rw [hnext] at hargs
    refine ⟨(argument, value) :: pairs,
      ⟨fun p hp ↦ ?_, List.nodup_cons.2 ⟨fun hmem ↦ ?_, hformed.nodup⟩⟩, fun p hp ↦ ?_, ?_⟩
    · rcases List.mem_cons.1 hp with rfl | hp
      · exact htakes
      · exact hformed.takes p hp
    · obtain ⟨p, hp, hname⟩ := List.mem_map.1 hmem
      exact hseen p hp (hname ▸ List.mem_cons_self)
    · rcases List.mem_cons.1 hp with rfl | hp
      · exact fun hin ↦ hnew (List.contains_iff_mem.2 hin)
      · exact fun hin ↦ hseen p hp (List.mem_cons_of_mem _ hin)
    · rcases hargs with ⟨rfl, hfinish⟩ | ⟨help, later, hhelp', rfl, ho'⟩
      · exact Or.inl ⟨rfl, hfinish⟩
      · exact Or.inr ⟨help, later, hhelp', rfl, ho'⟩

theorem valueOf_ne_empty {pairs : List (String × String)} (h : WellFormed pairs) {name : String}
    (hname : name ∈ pairs.map (·.1)) (default : String) : valueOf name default pairs ≠ "" := by
  obtain ⟨p, hp, rfl⟩ := List.mem_map.1 hname
  obtain ⟨q, hq⟩ : ∃ q, (pairs.find? fun q ↦ q.1 == p.1) = some q :=
    Option.isSome_iff_exists.1 (List.find?_isSome.2 ⟨p, hp, beq_self_eq_true _⟩)
  rw [valueOf, hq]
  exact (h.takes q (List.mem_of_find?_eq_some hq)).1

theorem valueOf_eq_empty_iff {pairs : List (String × String)} (h : WellFormed pairs)
    (name : String) : valueOf name "" pairs = "" ↔ name ∉ pairs.map (·.1) :=
  ⟨fun hempty hname ↦ valueOf_ne_empty h hname "" hempty, fun hname ↦ valueOf_of_not_mem hname⟩

/-- The last checks ask for the three options; a network is always named. -/
theorem finish_eq_some_iff {pairs : List (String × String)} (h : WellFormed pairs)
    (o : CliOptions) : (ofPairs pairs).finish.options = some o ↔
      Complete pairs ∧ o = ofPairs pairs := by
  have hnet : (ofPairs pairs).net ≠ "" := by
    by_cases hname : "--net" ∈ pairs.map (·.1)
    · exact valueOf_ne_empty h hname "none"
    · rw [show (ofPairs pairs).net = "none" from valueOf_of_not_mem hname]
      decide
  have hcomplete : Complete pairs ↔ (ofPairs pairs).biosPath ≠ "" ∧
      (ofPairs pairs).kernelPath ≠ "" ∧ (ofPairs pairs).diskPath ≠ "" := by
    have hhas (name : String) : valueOf name "" pairs ≠ "" ↔ name ∈ pairs.map (·.1) :=
      (valueOf_eq_empty_iff h name).not.trans not_not
    simp only [Complete, List.mem_cons, List.not_mem_nil, or_false, forall_eq_or_imp, forall_eq]
    exact and_congr (hhas _).symm (and_congr (hhas _).symm (hhas _).symm)
  rw [hcomplete, finish]
  split
  · next hbios => exact iff_of_false (by simp) fun hall ↦ hall.1.1 hbios
  · next hbios =>
    split
    · next hkernel => exact iff_of_false (by simp) fun hall ↦ hall.1.2.1 hkernel
    · next hkernel =>
      split
      · next hdisk => exact iff_of_false (by simp) fun hall ↦ hall.1.2.2 hdisk
      · next hdisk =>
        rw [Option.some_inj]
        exact ⟨fun heq ↦ ⟨⟨hbios, hkernel, hdisk⟩, heq.symm⟩, fun hall ↦ hall.2.symm⟩

end CliOptions

open CliOptions in
/-- **The command line.**  It is accepted exactly when it is a list of options with values that they
take, each option once, with the three required ones among them, or such a list with a request for
help after it; the result is what the list says, in whatever order it says it. -/
theorem parseCli_eq_some_iff :
    (∀ (args : List String) (o : CliOptions), (parseCli args).options = some o ↔
      (∃ pairs, WellFormed pairs ∧ Complete pairs ∧ args = arguments pairs ∧ o = ofPairs pairs) ∨
      ∃ pairs help rest, WellFormed pairs ∧ isHelp help = true ∧
        args = arguments pairs ++ help :: rest ∧ o = { ofPairs pairs with help := true }) ∧
    ∀ pairs pairs', WellFormed pairs → pairs.Perm pairs' →
      (parseCli (arguments pairs')).options = (parseCli (arguments pairs)).options := by
  -- a list without a request for help
  have hlist {pairs : List (String × String)} (h : WellFormed pairs) (rest : List String) :
      ∃ seen, parseCli (arguments pairs ++ rest) = parseCliFrom (ofPairs pairs) seen rest := by
    obtain ⟨seen, -, hparse⟩ := parseCliFrom_arguments h {} []
      (fun _ _ ↦ List.not_mem_nil) rest
    exact ⟨seen, hparse.trans (by rw [foldl_apply_eq h])⟩
  have hplain {pairs : List (String × String)} (h : WellFormed pairs) :
      parseCli (arguments pairs) = (ofPairs pairs).finish := by
    obtain ⟨seen, hparse⟩ := hlist h []
    rw [List.append_nil] at hparse
    rw [hparse, parseCliFrom]
  refine ⟨fun args o ↦ ⟨fun h ↦ ?_, ?_⟩, fun pairs pairs' h hperm ↦ ?_⟩
  · obtain ⟨pairs, hformed, -, hargs⟩ := arguments_of_parseCliFrom args h
    rw [foldl_apply_eq hformed] at hargs
    rcases hargs with ⟨rfl, hfinish⟩ | ⟨help, rest, hhelp, rfl, ho⟩
    · obtain ⟨hcomplete, ho⟩ := (finish_eq_some_iff hformed o).1 hfinish
      exact Or.inl ⟨pairs, hformed, hcomplete, rfl, ho⟩
    · exact Or.inr ⟨pairs, help, rest, hformed, hhelp, rfl, ho⟩
  · rintro (⟨pairs, hformed, hcomplete, rfl, ho⟩ | ⟨pairs, help, rest, hformed, hhelp, rfl, ho⟩)
    · rw [hplain hformed]
      exact (finish_eq_some_iff hformed o).2 ⟨hcomplete, ho⟩
    · obtain ⟨seen, hparse⟩ := hlist hformed (help :: rest)
      rw [hparse, ho]
      cases rest <;> rw [parseCliFrom, if_pos hhelp]
  · have hnodup := (hperm.map (·.1)).nodup_iff.1 h.nodup
    have hformed' : WellFormed pairs' := ⟨fun p hp ↦ h.takes p (hperm.mem_iff.2 hp), hnodup⟩
    have hvalue := valueOf_perm hperm h.nodup
    have hsame : ofPairs pairs' = ofPairs pairs := by
      rw [ofPairs, ofPairs, hvalue, hvalue, hvalue, hvalue]
    rw [hplain h, hplain hformed', hsame]

example : (parseCli ["--disk", "d", "--kernel", "k", "--bios", "b"]).options =
    some { biosPath := "b", kernelPath := "k", diskPath := "d" } := by decide

end Rvemu
