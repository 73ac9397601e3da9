/-
What a plan prints is read back.

Without a directory the artifacts of a plan go to the standard output, one after another, and
nothing but a line end stands between two of them.

* `render_eq`: an artifact is its document with a line end behind it;
* `render_eq_render_iff`: artifacts are the same for the same resource or target only;
* `printed_splitsInto_iff` draws the conclusion for plans.
-/
import Rollout.Proofs.Json.Sequence
import Rollout.Proofs.Kubernetes.Rendered
import Rollout.Proofs.Plan.Files

namespace Rollout.Plan

open Host (Program)
open Json (SplitsInto)
open Kubernetes (Connection Resource)

/-- What an operation sets up or takes down. -/
def Operation.subject (op : Operation) : Resource ⊕ Kubernetes.Target :=
  match op.call with
  | .create _ r => .inl r
  | .delete t => .inr t

/-- The bytes of a document, without a line end. -/
def Operation.content (op : Operation) : Bytes :=
  Utf8.encode op.document.pretty

theorem render_eq (op : Operation) : render op.document = op.content ++ [0x0A] := by
  rw [render, Operation.content, Utf8.encode, Utf8.encode, String.toList_append,
    List.flatMap_append]
  rfl

theorem Operation.document_eq (op : Operation) :
    op.document = op.subject.elim Resource.toJson Kubernetes.Target.toJson := by
  obtain ⟨_, _ | _⟩ := op <;> rfl

theorem Operation.exists_fields (op : Operation) : ∃ fields, op.document = .object fields := by
  obtain ⟨_, _ | _⟩ := op <;> exact ⟨_, rfl⟩

theorem toJson_elim_injective :
    Function.Injective (Sum.elim Resource.toJson Kubernetes.Target.toJson) :=
  Resource.toJson_injective.sumElim Kubernetes.Target.toJson_injective Resource.toJson_ne_toJson

theorem render_eq_render_iff {op op' : Operation} :
    render op.document = render op'.document ↔ op.subject = op'.subject := by
  rw [render_eq, render_eq, List.append_cancel_right_eq, Operation.content, Operation.content]
  constructor
  · intro h
    have hdocument := Json.pretty_inj (Utf8.encode_inj h)
    rw [Operation.document_eq, Operation.document_eq] at hdocument
    exact toJson_elim_injective hdocument
  · intro h
    rw [Operation.document_eq, Operation.document_eq, h]

/-- **What is printed is read back.**  A plan without a directory that does not fail prints the
artifacts of its operations.  They are cut apart into documents with a line end behind each in one
way only, and two artifacts are the same for the same resource or target only. -/
theorem printed_splitsInto_iff (mode : Mode) (c : Connection) (ops : List Operation)
    (dryRun : Bool) (trace : List Event)
    (h : Program.Path (execute ⟨mode, .operations c .stdout ops⟩ dryRun).run trace (.ok ())) :
    (printed trace = ops.flatMap fun op => render op.document) ∧
    (∀ pieces, SplitsInto (printed trace) pieces ↔ pieces = ops.map (·.content)) ∧
    ∀ op op' : Operation, render op.document = render op'.document ↔ op.subject = op'.subject := by
  have hprinted : printed trace = ops.flatMap fun op => render op.document := by
    rw [path_execute_ok_iff.mp h, printed_schedule]
  have hbytes : printed trace = (ops.map (·.content)).flatMap (· ++ [0x0A]) := by
    rw [hprinted, List.flatMap_map]
    simp only [render_eq]
  refine ⟨hprinted, fun pieces => ?_, fun op op' => render_eq_render_iff⟩
  rw [hbytes]
  refine Json.splitsInto_iff fun bs hbs => ?_
  obtain ⟨op, -, rfl⟩ := List.mem_map.mp hbs
  obtain ⟨fields, hfields⟩ := op.exists_fields
  rw [Operation.content, hfields]
  exact ⟨Json.isDocument_pretty _, Json.braced_pretty fields⟩

/-- The name of the second resource looks like the end of a document and the beginning of
another. -/
def lineEnds : List Operation :=
  [⟨"web-deploy-delete", .delete { kind := .deployment, name := "web", ns := "default" }⟩,
    ⟨"web-load-balancer", .create "default" (.service
      { metadata := { name := some "web\"\n\x7d\n\x7b\n\"" }, exposure := .clusterIP,
        selector := [], ports := [80] })⟩]

/-- What it prints is two documents nevertheless. -/
theorem printed_splitsInto_iff_lineEnds :
    ∃ trace, Program.Path (execute ⟨.create, .operations {} .stdout lineEnds⟩ true).run
        trace (.ok ()) ∧
      ∃ first second, SplitsInto (printed trace) [first, second] ∧
        ∀ pieces, SplitsInto (printed trace) pieces → pieces.length = 2 := by
  have hpath : Program.Path (execute ⟨.create, .operations {} .stdout lineEnds⟩ true).run _
      (.ok ()) := path_execute_ok_iff.mpr rfl
  obtain ⟨-, hsplits, -⟩ := printed_splitsInto_iff .create {} lineEnds true _ hpath
  refine ⟨_, hpath, _, _, (hsplits _).mpr rfl, fun pieces h => ?_⟩
  rw [(hsplits pieces).mp h]
  rfl

end Rollout.Plan
