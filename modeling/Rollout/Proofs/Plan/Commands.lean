/-
Carrying out a plan of commands, whatever the surroundings answer.

The commands are taken in order.  Each one passes or stops the plan: it passes when it is run and
ends with the code zero, or in a dry run when it is announced.

* `Passes` and `Stops` say what is done for one command (`path_executeLine_iff`), and `Carries` what
  is done for a plan;
* `path_executeAll_iff`: plans are carried out so, and with every way to stop;
* `AllRan` lists what is done when every command passes, `carries_iff` takes a run apart there, and
  `carries_dry_iff` says so of a dry run;
* `execute_commands` draws the conclusion.

Design notes: what a command wrote is passed on before its code is looked at, so that a command that
fails is shown as well.  A dry run whose announcements cannot be printed is cut short; it runs no
command then either.
-/
import Rollout.Proofs.Plan.Execution

namespace Rollout.Plan

open Host (CommandError CommandLine CommandOutput Program)

variable {dryRun : Bool} {i : Invocation} {calls : List Invocation} {trace : List Event}
  {result : Except Error Unit} {α ε : Type}

/-- What a dry run says of a command. -/
def announcement (argv : CommandLine) : Bytes :=
  Utf8.encode ("Would execute: " ++ " ".intercalate argv ++ "\n")

/-- The command lines that were run, in order. -/
def commandLines (trace : List Event) : List CommandLine :=
  trace.filterMap fun
    | ⟨.command argv, _⟩ => some argv
    | _ => none

/-! ### One command -/

/-- What is done for a command that passes. -/
inductive Passes (i : Invocation) : Bool → List Event → Prop
  | announced : Passes i true [⟨.print (announcement i.argv), .ok ()⟩]
  | ran (output : CommandOutput) (success : output.success = true) :
      Passes i false [⟨.command i.argv, .ok output⟩, ⟨.print output.stdout, .ok ()⟩]

/-- What is done for a command that stops the plan, and what the plan fails with. -/
inductive Stops (i : Invocation) : Bool → List Event → Error → Prop
  | unannounced (e : Host.Error) :
      Stops i true [⟨.print (announcement i.argv), .error e⟩] (.write "<stdout>" e)
  /-- It cannot be run. -/
  | notRun (e : CommandError) : Stops i false [⟨.command i.argv, .error e⟩] (.command e)
  /-- What it wrote cannot be passed on. -/
  | notShown (output : CommandOutput) (e : Host.Error) :
      Stops i false [⟨.command i.argv, .ok output⟩, ⟨.print output.stdout, .error e⟩]
        (.write "<stdout>" e)
  /-- It ended with another code than zero, or with a signal. -/
  | failed (output : CommandOutput) (code : output.code ≠ some 0) :
      Stops i false [⟨.command i.argv, .ok output⟩, ⟨.print output.stdout, .ok ()⟩]
        (.command (.failed (i.argv.head?.getD "") output.code
          (Text.trim (Utf8.decodeLossy output.stderr))))

theorem path_orFail_iff {e : ε → Error} {p : Run (Except ε α)} {r : Except Error α} :
    Program.Path (orFail e p).run trace r ↔ ∃ x, Program.Path p trace x ∧ r = x.mapError e :=
  Program.path_bindDone_iff

/-- What follows is only come to when the answer is no failure. -/
theorem path_orFail_bind_iff {β : Type} {e : ε → Error} {p : Run (Except ε α)}
    {f : α → RunExcept Error β} {r : Except Error β} :
    Program.Path (orFail e p >>= f : RunExcept Error β).run trace r ↔
      (∃ a, Program.Path p trace (.error a) ∧ r = .error (e a)) ∨
        ∃ first a rest, trace = first ++ rest ∧ Program.Path p first (.ok a) ∧
          Program.Path (f a).run rest r := by
  rw [Program.path_bindExcept_iff]
  simp only [path_orFail_iff]
  constructor
  · rintro (⟨_, rfl, a | a, hp, he⟩ | ⟨first, a, rest, rfl, ⟨b | b, hp, hb⟩, hf⟩)
    · obtain rfl := Except.error.inj he
      exact .inl ⟨a, hp, rfl⟩
    · cases he
    · cases hb
    · obtain rfl := Except.ok.inj hb
      exact .inr ⟨first, a, rest, rfl, hp, hf⟩
  · rintro (⟨a, hp, rfl⟩ | ⟨first, a, rest, rfl, hp, hf⟩)
    · exact .inl ⟨_, rfl, .error a, hp, rfl⟩
    · exact .inr ⟨first, a, rest, rfl, ⟨.ok a, hp, rfl⟩, hf⟩

/-- The code is looked at when what the command wrote was passed on. -/
theorem path_finished_iff {output : CommandOutput} :
    Program.Path (if !output.success then throw (.command (output.failure i.argv)) else pure () :
        RunExcept Error Unit).run trace result ↔
      trace = [] ∧ (output.success = true ∧ result = .ok () ∨
        output.success = false ∧ result = .error (.command (output.failure i.argv))) := by
  cases output.success <;> simpa using Program.path_done_iff

theorem path_executeLine_dry_iff :
    Program.Path (Invocation.executeLine true i.argv).run trace result ↔
      Passes i true trace ∧ result = .ok () ∨ ∃ e, Stops i true trace e ∧ result = .error e := by
  refine path_orFail_iff.trans ⟨?_, ?_⟩
  · rintro ⟨e | ⟨⟩, hprint, rfl⟩ <;> obtain rfl := Program.path_take_iff.mp hprint
    · exact .inr ⟨_, .unannounced e, rfl⟩
    · exact .inl ⟨.announced, rfl⟩
  · rintro (⟨⟨⟩, rfl⟩ | ⟨_, ⟨e⟩, rfl⟩)
    · exact ⟨.ok (), Program.path_take_iff.mpr rfl, rfl⟩
    · exact ⟨.error e, Program.path_take_iff.mpr rfl, rfl⟩

/-- **A command passes or stops the plan.** -/
theorem path_executeLine_iff :
    Program.Path (Invocation.executeLine dryRun i.argv).run trace result ↔
      Passes i dryRun trace ∧ result = .ok () ∨
        ∃ e, Stops i dryRun trace e ∧ result = .error e := by
  cases dryRun with
  | true => exact path_executeLine_dry_iff
  | false =>
    refine path_orFail_bind_iff.trans ⟨?_, ?_⟩
    · -- the command is run, what it wrote is printed, and then its code is looked at
      rintro (⟨e, hrun, rfl⟩ | ⟨_, output, _, rfl, hrun, hlater⟩) <;>
        obtain rfl := Program.path_take_iff.mp hrun
      · exact .inr ⟨_, .notRun e, rfl⟩
      rcases path_orFail_bind_iff.mp hlater with ⟨e, hshow, rfl⟩ | ⟨_, _, _, rfl, hshow, hcode⟩ <;>
        obtain rfl := Program.path_take_iff.mp hshow
      · exact .inr ⟨_, .notShown output e, rfl⟩
      obtain ⟨rfl, ⟨hsuccess, rfl⟩ | ⟨hfailure, rfl⟩⟩ := path_finished_iff.mp hcode
      · exact .inl ⟨.ran output hsuccess, rfl⟩
      · exact .inr ⟨_, .failed output (by simpa [CommandOutput.success] using hfailure), rfl⟩
    · intro h
      have hran (output : CommandOutput) : Program.Path (Run.take (.command i.argv))
          [⟨.command i.argv, .ok output⟩] (.ok output) := Program.path_take_iff.mpr rfl
      have hshown (text : Bytes) (r : Except Host.Error Unit) :
          Program.Path (Run.take (.print text)) [⟨.print text, r⟩] r :=
        Program.path_take_iff.mpr rfl
      rcases h with ⟨⟨⟩, rfl⟩ | ⟨e, hstops, rfl⟩
      · next output hsuccess =>
        refine .inr ⟨[_], output, [_], rfl, hran output, path_orFail_bind_iff.mpr ?_⟩
        exact .inr ⟨[_], (), [], rfl, hshown _ _, path_finished_iff.mpr ⟨rfl, .inl ⟨hsuccess, rfl⟩⟩⟩
      cases hstops with
      | notRun e => exact .inl ⟨e, Program.path_take_iff.mpr rfl, rfl⟩
      | notShown output e =>
        refine .inr ⟨[_], output, [_], rfl, hran output, path_orFail_bind_iff.mpr ?_⟩
        exact .inl ⟨e, hshown _ _, rfl⟩
      | failed output hnonzero =>
        refine .inr ⟨[_], output, [_], rfl, hran output, path_orFail_bind_iff.mpr ?_⟩
        have hfailure : output.success = false := by simpa [CommandOutput.success] using hnonzero
        exact .inr ⟨[_], (), [], rfl, hshown _ _, path_finished_iff.mpr ⟨rfl, .inr ⟨hfailure, rfl⟩⟩⟩

/-! ### One command after another -/

/-- What is done to carry out commands: they pass in order, up to the first that stops the plan. -/
inductive Carries (dryRun : Bool) : List Invocation → List Event → Except Error Unit → Prop
  | done : Carries dryRun [] [] (.ok ())
  | stops {i : Invocation} {events : List Event} {e : Error} (h : Stops i dryRun events e)
      (rest : List Invocation) : Carries dryRun (i :: rest) events (.error e)
  | passes {i : Invocation} {events : List Event} (h : Passes i dryRun events)
      {rest : List Invocation} {later : List Event} {result : Except Error Unit}
      (hrest : Carries dryRun rest later result) :
      Carries dryRun (i :: rest) (events ++ later) result

/-- Commands are carried out in order, and each of them may stop the plan in every way. -/
theorem path_executeAll_iff :
    Program.Path (Invocation.executeAll dryRun calls).run trace result ↔
      Carries dryRun calls trace result := by
  induction calls generalizing trace with
  | nil =>
    refine Program.path_done_iff.trans ⟨?_, ?_⟩
    · rintro ⟨rfl, rfl⟩
      exact .done
    · intro h
      cases h
      exact ⟨rfl, rfl⟩
  | cons i calls ih =>
    refine Program.path_bindExcept_iff.trans ⟨?_, ?_⟩
    · rintro (⟨e, rfl, hline⟩ | ⟨events, _, later, rfl, hline, hrest⟩)
      · obtain ⟨-, hok⟩ | ⟨e, hstops, he⟩ := path_executeLine_iff.mp hline
        · cases hok
        · cases he
          exact .stops hstops calls
      · obtain ⟨hpasses, -⟩ | ⟨e, -, he⟩ := path_executeLine_iff.mp hline
        · exact .passes hpasses (ih.mp hrest)
        · cases he
    · intro h
      cases h with
      | stops hstops => exact .inl ⟨_, rfl, path_executeLine_iff.mpr (.inr ⟨_, hstops, rfl⟩)⟩
      | passes hpasses hrest =>
        exact .inr ⟨_, (), _, rfl, path_executeLine_iff.mpr (.inl ⟨hpasses, rfl⟩), ih.mpr hrest⟩

/-! ### What was run -/

/-- Each command was run and ended with success, and what it wrote was passed on before the next
one was run. -/
inductive AllRan : List Invocation → List Event → Prop
  | nil : AllRan [] []
  | cons (i : Invocation) (output : CommandOutput) {calls : List Invocation} {trace : List Event}
      (success : output.success = true) (rest : AllRan calls trace) :
      AllRan (i :: calls)
        (⟨.command i.argv, .ok output⟩ :: ⟨.print output.stdout, .ok ()⟩ :: trace)

/-- Commands are run up to the first that stops the plan. -/
theorem carries_iff :
    Carries false calls trace result ↔ AllRan calls trace ∧ result = .ok () ∨
      ∃ done i rest before events e, calls = done ++ i :: rest ∧ AllRan done before ∧
        Stops i false events e ∧ trace = before ++ events ∧ result = .error e := by
  constructor
  · intro h
    induction h with
    | done => exact .inl ⟨.nil, rfl⟩
    | @stops i events e hstops rest =>
      exact .inr ⟨[], i, rest, [], events, e, rfl, .nil, hstops, rfl, rfl⟩
    | @passes i _ hpasses _ _ _ _ ih =>
      cases hpasses with
      | ran output hsuccess =>
        rcases ih with ⟨hall, rfl⟩ | ⟨done, j, rest, before, events, e, rfl, hall, hj, rfl, rfl⟩
        · exact .inl ⟨.cons i output hsuccess hall, rfl⟩
        · exact .inr ⟨i :: done, j, rest, _, events, e, rfl, .cons i output hsuccess hall, hj,
            rfl, rfl⟩
  · rintro (⟨hall, rfl⟩ | ⟨done, i, rest, before, events, e, rfl, hall, hi, rfl, rfl⟩)
    · induction hall with
      | nil => exact .done
      | cons i output hsuccess _ ih => exact .passes (.ran output hsuccess) ih
    · induction hall with
      | nil => exact .stops hi rest
      | cons i output hsuccess _ ih => exact .passes (.ran output hsuccess) ih

/-- What is run are the commands of the plan in order, all of them when it is carried out. -/
theorem Carries.commandLines_isPrefix (h : Carries false calls trace result) :
    commandLines trace <+: calls.map Invocation.argv ∧
      (result = .ok () → commandLines trace = calls.map Invocation.argv) := by
  induction h with
  | done => exact ⟨List.prefix_rfl, fun _ => rfl⟩
  | @stops i events e hstops rest =>
    have hlines : commandLines events = [i.argv] := by cases hstops <;> rfl
    rw [hlines, List.map_cons]
    exact ⟨⟨_, rfl⟩, nofun⟩
  | @passes i events hpasses rest later _ _ ih =>
    have hlines : commandLines events = [i.argv] := by cases hpasses; rfl
    rw [commandLines, List.filterMap_append, ← commandLines, ← commandLines, hlines,
      List.map_cons]
    exact ⟨List.cons_prefix_cons.mpr ⟨rfl, ih.1⟩, fun hok => congrArg (i.argv :: ·) (ih.2 hok)⟩

/-! ### What was announced -/

/-- A dry run announces the commands in order, and does nothing else. -/
theorem Carries.announces (h : Carries true calls trace result) :
    trace.map Sigma.fst <+: calls.map (fun i => Action.print (announcement i.argv)) := by
  induction h with
  | done => exact List.prefix_rfl
  | @stops i events e hstops rest =>
    have hprints : events.map Sigma.fst = [.print (announcement i.argv)] := by cases hstops; rfl
    rw [hprints, List.map_cons]
    exact ⟨_, rfl⟩
  | @passes i events hpasses rest later _ _ ih =>
    have hprints : events.map Sigma.fst = [.print (announcement i.argv)] := by cases hpasses; rfl
    rw [List.map_append, hprints, List.map_cons]
    exact List.cons_prefix_cons.mpr ⟨rfl, ih⟩

/-- When no print fails, every command is announced. -/
theorem carries_dry_iff :
    (Carries true calls trace result ∧ ∀ v ∈ trace, ∃ text, v = ⟨.print text, .ok ()⟩) ↔
      trace = calls.map (fun i => ⟨.print (announcement i.argv), .ok ()⟩) ∧ result = .ok () := by
  constructor
  · rintro ⟨h, hshown⟩
    induction h with
    | done => exact ⟨rfl, rfl⟩
    | stops hstops rest =>
      cases hstops with
      | unannounced e =>
        obtain ⟨text, htext⟩ := hshown _ List.mem_cons_self
        cases htext
    | passes hpasses hrest ih =>
      cases hpasses with
      | announced =>
        obtain ⟨rfl, rfl⟩ := ih fun v hv => hshown v (List.mem_cons_of_mem _ hv)
        exact ⟨rfl, rfl⟩
  · rintro ⟨rfl, rfl⟩
    refine ⟨?_, fun v hv => ?_⟩
    · induction calls with
      | nil => exact .done
      | cons i calls ih => exact .passes .announced ih
    · obtain ⟨i, -, rfl⟩ := List.mem_map.mp hv
      exact ⟨_, rfl⟩

/-- **A plan of commands is carried out up to the first command that does not succeed.**  The
commands are run in order, and what each of them wrote is passed on once it has finished, that of a
failing one too.  When one cannot be run, cannot be shown or ends with anything but the code zero,
no later one is run, and the error is that of this command: for one that finished its program, its
code and what it wrote to the error output.  A dry run announces the commands that would be run, one
after another, and runs none. -/
theorem execute_commands (mode : Mode) (backend : Backend) (calls : List Invocation) :
    (∀ trace result,
      Program.Path (execute ⟨mode, .invocations backend calls⟩ false).run trace result ↔
        AllRan calls trace ∧ result = .ok () ∨
          ∃ done i rest before events e, calls = done ++ i :: rest ∧ AllRan done before ∧
            Stops i false events e ∧ trace = before ++ events ∧ result = .error e) ∧
    (∀ trace result,
      Program.Path (execute ⟨mode, .invocations backend calls⟩ false).run trace result →
        commandLines trace <+: calls.map Invocation.argv ∧
          (result = .ok () → commandLines trace = calls.map Invocation.argv)) ∧
    (∀ trace result,
      Program.Path (execute ⟨mode, .invocations backend calls⟩ true).run trace result →
        trace.map Sigma.fst <+: calls.map fun i => .print (announcement i.argv)) ∧
    ∀ trace result,
      (Program.Path (execute ⟨mode, .invocations backend calls⟩ true).run trace result ∧
          ∀ v ∈ trace, ∃ text, v = ⟨.print text, .ok ()⟩) ↔
        trace = calls.map (fun i => ⟨.print (announcement i.argv), .ok ()⟩) ∧ result = .ok () := by
  have hcarries (dryRun : Bool) {trace : List Event} {result : Except Error Unit} :
      Program.Path (execute ⟨mode, .invocations backend calls⟩ dryRun).run trace result ↔
        Carries dryRun calls trace result := path_executeAll_iff
  refine ⟨fun trace result => ?_, fun trace result h => ?_, fun trace result h => ?_,
    fun trace result => ?_⟩
  · rw [hcarries, carries_iff]
  · exact ((hcarries false).mp h).commandLines_isPrefix
  · exact ((hcarries true).mp h).announces
  · rw [hcarries, carries_dry_iff]

end Rollout.Plan
