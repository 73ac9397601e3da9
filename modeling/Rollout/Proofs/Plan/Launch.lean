/-
The command line that starts a service says all about it that the tool is told.

A command line is words in a row: some in fixed places, then options with one value each, of which
there may be any number, and then perhaps an image.  No word marks where the options end, and every
value may look like an option.

* `flagged_append_inj`: options of one name can be cut off in one way only, whatever follows that
  is not such an option with its value;
* `runLine_eq_ok`, `createLine_eq_ok`: the lines that start services, as lines of what is
  launched;
* `runWords_inj`, `createWords_inj`: these lines are cut back in one way only;
* `lines_eq_iff` draws the conclusion for services.
-/
import Rollout.Plan.Invocation
import Rollout.Proofs.Except

namespace Rollout.Plan

open Host (CommandLine)
open Spec (Container Service)

/-- What a command line says of a service of one container. -/
structure Launch where
  name : String
  image : String
  ports : List UInt16
  /-- `NAME=VALUE` for every variable. -/
  env : List String
  deriving DecidableEq, Repr

/-- What is launched for a service that has this container. -/
def Launch.of (x : Service) (c : Container) : Launch where
  name := x.name
  image := c.image
  ports := x.ports.map (·.number)
  env := c.env.map fun e => s!"{e.name}={e.value}"

/-! ### Options -/

/-- An option for each of some values. -/
def flagged (flag : String) (values : List String) : CommandLine :=
  values.flatMap fun v => [flag, v]

/-- No option of this name with a value stands in front. -/
def Unflagged (flag : String) (words : CommandLine) : Prop :=
  ∀ v rest, words ≠ flag :: v :: rest

variable {flag : String} {vs ws : List String} {rest rest' : CommandLine}

@[simp] theorem flagged_nil : flagged flag [] = [] := rfl

@[simp] theorem flagged_cons (v : String) (vs : List String) :
    flagged flag (v :: vs) = flag :: v :: flagged flag vs := rfl

theorem unflagged_nil : Unflagged flag [] := nofun

/-- A last word is no option, even if it looks like one. -/
theorem unflagged_singleton (word : String) : Unflagged flag [word] := nofun

/-- Options of another name do not begin with this one. -/
theorem unflagged_append {other : String} (hne : other ≠ flag) (vs : List String)
    (hrest : Unflagged flag rest) : Unflagged flag (flagged other vs ++ rest) := by
  cases vs with
  | nil => exact hrest
  | cons v vs => exact fun w words h => hne (List.cons_eq_cons.mp h).1

theorem flagged_append_inj (hrest : Unflagged flag rest) (hrest' : Unflagged flag rest')
    (h : flagged flag vs ++ rest = flagged flag ws ++ rest') : vs = ws ∧ rest = rest' := by
  induction vs generalizing ws with
  | nil =>
    cases ws with
    | nil => exact ⟨rfl, h⟩
    | cons w ws => exact absurd h (hrest w _)
  | cons v vs ih =>
    cases ws with
    | nil => exact absurd h.symm (hrest' v _)
    | cons w ws =>
      simp only [flagged_cons, List.cons_append, List.cons.injEq, true_and] at h
      obtain ⟨rfl, h⟩ := h
      obtain ⟨rfl, hrest⟩ := ih h
      exact ⟨rfl, hrest⟩

/-! ### Ports -/

theorem toString_port_inj {p q : UInt16} (h : toString p = toString q) : p = q := by
  have hdigits : Nat.toDigits 10 p.toNat = Nat.toDigits 10 q.toNat := by
    simpa [toString] using congrArg String.toList h
  have hnumber := congrArg (Nat.ofDigitChars 10 · 0) hdigits
  simp only [Nat.ofDigitChars_ten_toDigits] at hnumber
  exact UInt16.toNat_inj.mp hnumber

/-- A port that is published under its own number. -/
def published (p : UInt16) : String := s!"{p}:{p}"

theorem published_inj {p q : UInt16} (h : published p = published q) : p = q := by
  have hchars : (toString p).toList ++ ':' :: (toString p).toList
      = (toString q).toList ++ ':' :: (toString q).toList := by
    have hcolon : (toString ":").toList = [':'] := rfl
    simpa [published, hcolon] using congrArg String.toList h
  have hlength : (toString p).toList.length = (toString q).toList.length := by
    have := congrArg List.length hchars
    simp only [List.length_append, List.length_cons] at this
    omega
  exact toString_port_inj (String.toList_inj.mp (List.append_inj hchars hlength).1)

/-! ### Lines -/

namespace Launch

/-- The line that runs a container. -/
def runWords (l : Launch) : CommandLine :=
  ["docker", "run", "--name", l.name, "-d"]
    ++ (flagged "-p" (l.ports.map published) ++ (flagged "-e" l.env ++ [l.image]))

/-- The line that creates a container instance in a group. -/
def createWords (group : String) (l : Launch) (isPublic : Bool) : CommandLine :=
  ["az", "container", "create", "-g", group, "-n", l.name, "--image", l.image]
    ++ (flagged "--port" (l.ports.map toString)
      ++ (flagged "-e" l.env ++ if isPublic then ["--ip-address", "public"] else []))

end Launch

variable {l l' : Launch}

theorem runWords_inj (h : l.runWords = l'.runWords) : l = l' := by
  obtain ⟨hhead, hoptions⟩ := List.append_inj h rfl
  have hname : l.name = l'.name := by simpa using hhead
  obtain ⟨hports, hoptions⟩ := flagged_append_inj
    (unflagged_append (by decide) _ (unflagged_singleton _))
    (unflagged_append (by decide) _ (unflagged_singleton _)) hoptions
  obtain ⟨henv, himage⟩ :=
    flagged_append_inj (unflagged_singleton _) (unflagged_singleton _) hoptions
  have hnumbers := List.map_injective_iff.mpr (fun _ _ => published_inj) hports
  cases l
  cases l'
  simp_all

theorem createWords_inj {group group' : String} {isPublic isPublic' : Bool}
    (h : l.createWords group isPublic = l'.createWords group' isPublic') :
    group = group' ∧ l = l' ∧ isPublic = isPublic' := by
  obtain ⟨hhead, hoptions⟩ := List.append_inj h rfl
  obtain ⟨hgroup, hname, himage⟩ : group = group' ∧ l.name = l'.name ∧ l.image = l'.image := by
    simpa using hhead
  have hend {flag : String} (hflag : "--ip-address" ≠ flag) (b : Bool) :
      Unflagged flag (if b then ["--ip-address", "public"] else []) := by
    cases b with
    | false => exact unflagged_nil
    | true => exact unflagged_append hflag ["public"] unflagged_nil
  obtain ⟨hports, hoptions⟩ := flagged_append_inj
    (unflagged_append (by decide) _ (hend (by decide) _))
    (unflagged_append (by decide) _ (hend (by decide) _)) hoptions
  obtain ⟨henv, hpublic⟩ := flagged_append_inj (hend (by decide) _) (hend (by decide) _) hoptions
  have hnumbers := List.map_injective_iff.mpr (fun _ _ => toString_port_inj) hports
  have hflag : isPublic = isPublic' := by
    cases isPublic <;> cases isPublic' <;> simp_all
  cases l
  cases l'
  simp_all

/-! ### Services -/

variable {x x' : Service} {argv argv' : CommandLine}

theorem singleContainer_eq_ok {b : Backend} {c : Container} (h : singleContainer b x = .ok c) :
    x.containers = [c] := by
  unfold singleContainer at h
  split at h
  · cases h
  · split at h
    · cases h
    · next hc => rw [hc, Except.ok.inj h]
    · cases h

theorem envArgs_eq (x : Service) (c : Container) :
    envArgs c = flagged "-e" (Launch.of x c).env := by
  rw [envArgs, Launch.of, flagged, List.flatMap_map]

theorem runLine_eq_ok (h : Docker.runLine x = .ok argv) :
    ∃ c, x.containers = [c] ∧ argv = (Launch.of x c).runWords := by
  obtain ⟨c, hc, h⟩ := bind_eq_ok_iff.mp h
  refine ⟨c, singleContainer_eq_ok hc, ?_⟩
  rw [← Except.ok.inj h, envArgs_eq x, Launch.runWords]
  simp [flagged, Launch.of, published, List.flatMap_map]

theorem portArgs_eq_ok {words : CommandLine} (h : Aci.portArgs x = .ok words) :
    words = flagged "--port" ((x.ports.map (·.number)).map toString) := by
  unfold Aci.portArgs at h
  split at h
  · next hports => rw [← Except.ok.inj h, hports]; rfl
  · next hports => rw [← Except.ok.inj h, hports]; rfl
  · cases h

theorem createLine_eq_ok {group : String} {isPublic : Bool}
    (h : Aci.createLine group x isPublic = .ok argv) :
    ∃ c, x.containers = [c] ∧ argv = (Launch.of x c).createWords group isPublic := by
  obtain ⟨c, hc, h⟩ := bind_eq_ok_iff.mp h
  obtain ⟨words, hwords, h⟩ := bind_eq_ok_iff.mp h
  refine ⟨c, singleContainer_eq_ok hc, ?_⟩
  rw [← Except.ok.inj h, envArgs_eq x, portArgs_eq_ok hwords, Launch.createWords]
  simp [Launch.of]

/-- **Command lines lose nothing of what they launch.**  A service that has a line has one
container.  Two lines that run containers are equal exactly when the services have the same name,
the same image, the same ports in order and the same variables in order; two lines that create
instances are equal exactly when in addition the group is the same and both instances are public or
neither is. -/
theorem lines_eq_iff :
    (∀ x x' argv argv', Docker.runLine x = .ok argv → Docker.runLine x' = .ok argv' →
      ∃ c c', x.containers = [c] ∧ x'.containers = [c'] ∧
        (argv = argv' ↔ Launch.of x c = Launch.of x' c')) ∧
    ∀ group group' x x' isPublic isPublic' argv argv',
      Aci.createLine group x isPublic = .ok argv →
      Aci.createLine group' x' isPublic' = .ok argv' →
      ∃ c c', x.containers = [c] ∧ x'.containers = [c'] ∧
        (argv = argv' ↔
          group = group' ∧ Launch.of x c = Launch.of x' c' ∧ isPublic = isPublic') := by
  constructor
  · intro x x' argv argv' h h'
    obtain ⟨c, hc, rfl⟩ := runLine_eq_ok h
    obtain ⟨c', hc', rfl⟩ := runLine_eq_ok h'
    exact ⟨c, c', hc, hc', runWords_inj, congrArg Launch.runWords⟩
  · intro group group' x x' isPublic isPublic' argv argv' h h'
    obtain ⟨c, hc, rfl⟩ := createLine_eq_ok h
    obtain ⟨c', hc', rfl⟩ := createLine_eq_ok h'
    refine ⟨c, c', hc, hc', createWords_inj, ?_⟩
    rintro ⟨rfl, hlaunch, rfl⟩
    rw [hlaunch]

/-- A container that is named and configured like options. -/
def lookalikeContainer : Container where
  image := "-e"
  env := [⟨"-p", "443:443"⟩, ⟨"--ip-address", "public"⟩]

/-- A service of that container; no line says the protocol of its port. -/
def lookalike (protocol : Option Spec.Protocol) : Service where
  name := "--name"
  containers := [lookalikeContainer]
  ports := [{ number := 80, protocol }]

theorem lines_eq_iff_lookalike :
    (Docker.runLine (lookalike none) = .ok ["docker", "run", "--name", "--name", "-d", "-p",
        "80:80", "-e", "-p=443:443", "-e", "--ip-address=public", "-e"] ∧
      Docker.runLine (lookalike (some .udp)) = Docker.runLine (lookalike none) ∧
      Launch.of (lookalike none) lookalikeContainer
        = Launch.of (lookalike (some .udp)) lookalikeContainer) ∧
    ∃ argv argv', Aci.createLine "topo" (lookalike none) true = .ok argv ∧
      Aci.createLine "topo" (lookalike (some .udp)) false = .ok argv' ∧ argv ≠ argv' := by
  refine ⟨⟨rfl, rfl, ?_⟩, _, _, rfl, rfl, ?_⟩
  · obtain ⟨c, c', hc, hc', hlines⟩ :=
      lines_eq_iff.1 (lookalike none) (lookalike (some .udp)) _ _ rfl rfl
    obtain rfl : lookalikeContainer = c := by simpa [lookalike] using hc
    obtain rfl : lookalikeContainer = c' := by simpa [lookalike] using hc'
    exact hlines.mp rfl
  · obtain ⟨c, c', -, -, hlines⟩ :=
      lines_eq_iff.2 "topo" "topo" (lookalike none) (lookalike (some .udp)) true false _ _ rfl rfl
    exact fun h => absurd (hlines.mp h).2.2 (by decide)

end Rollout.Plan
