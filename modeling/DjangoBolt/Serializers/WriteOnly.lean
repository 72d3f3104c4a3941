import DjangoBolt.Serializers.FirstUse
import DjangoBolt.Serializers.Handled

open Python

namespace DjangoBolt.Serializers

inductive DumpCall where
  | dump (v : SerValue)
  | dumpMany (cls : ClassName) (instances : List SerValue)
  | view (w : SerializerView) (v : SerValue)
  | viewMany (w : SerializerView) (instances : List SerValue)

inductive Output where
  | python (o : Out)
  | bytes (j : Json)

def Output.exposes : Output → List Owned
  | python o => o.exposes
  | bytes j => j.exposes

inductive CallError where
  | dump (e : DumpError)
  | encode (e : EncodeError)
  deriving DecidableEq

section

variable (P : Owned → Prop) (R : Runtime) (classes : ClassName → DumpClass) (opts : DumpOptions)

def viewWrites (w : SerializerView) (cls : ClassName) (fields : List (String × SerValue)) :
    List (String × Write) :=
  let k := classes w.serializerClass
  writes R opts (classes cls) cls fields (k.getDumpFieldSpecs w.includeFields w.excludeFields)
    (k.getComputedDumpSpecs w.includeFields w.excludeFields)

def ViewHandled (w : SerializerView) : SerValue → Prop
  | .object cls fields =>
      ∀ e ∈ viewWrites R classes opts w cls fields,
        WriteSafe P (Handled P R classes opts) cls e.2
  | _ => True

variable {P R classes opts} {w : SerializerView} {vs : List SerValue} {os : List Out}

theorem viewDump_clean {v : SerValue} {o : Out} (h : viewDump R classes opts w v = .ok o) :
    o.Clean P ↔ ViewHandled P R classes opts w v := by
  cases v with
  | object cls fields => exact dumpImpl_clean (fields_agree fields) h
  | _ => cases h

theorem viewDumpMany_clean (h : viewDumpMany R classes opts w vs = .ok os) :
    (∀ o ∈ os, o.Clean P) ↔ ∀ v ∈ vs, ViewHandled P R classes opts w v := by
  induction vs generalizing os with
  | nil =>
    rw [← Except.ok.inj h]
    simp
  | cons v vs ih =>
    rw [viewDumpMany] at h
    cases hv : viewDump R classes opts w v with
    | error e =>
      rw [hv] at h
      cases h
    | ok o =>
      cases hvs : viewDumpMany R classes opts w vs with
      | error e =>
        simp only [hv, hvs] at h
        cases h
      | ok rest =>
        simp only [hv, hvs, Except.ok.injEq] at h
        rw [← h, List.forall_mem_cons, List.forall_mem_cons, viewDump_clean hv, ih hvs]

theorem dumpManyFast_clean {k : DumpClass} (h : dumpManyFast classes k vs = .ok os) :
    (∀ o ∈ os, o.Clean P) ↔ ∀ v ∈ vs, v.Safe P := by
  induction vs generalizing os with
  | nil =>
    rw [← Except.ok.inj h]
    simp
  | cons v vs ih =>
    cases v with
    | object cls fields =>
      rw [dumpManyFast] at h
      cases hv : dumpFast k.metadata.ormStateCheckFields (!(k.hasRename || k.tagValue.isSome))
          (classes cls) cls fields with
      | error e =>
        rw [hv] at h
        cases h
      | ok o =>
        cases hvs : dumpManyFast classes k vs with
        | error e =>
          simp only [hv, hvs] at h
          cases h
        | ok rest =>
          simp only [hv, hvs, Except.ok.injEq] at h
          rw [← h, List.forall_mem_cons, List.forall_mem_cons, clean_dumpFast hv, fieldsSafe_iff,
            ih hvs]
    | _ => cases h

end

namespace DumpCall

section

variable (P : Owned → Prop) (R : Runtime) (classes : ClassName → DumpClass) (opts : DumpOptions)

def result : DumpCall → Except DumpError Out
  | dump v => Serializers.dump R classes opts v
  | dumpMany cls vs => (Serializers.dumpMany R classes opts cls vs).map .list
  | view w v => viewDump R classes opts w v
  | viewMany w vs => (viewDumpMany R classes opts w vs).map .list

def Handled : DumpCall → Prop
  | dump v => Serializers.Handled P R classes opts v
  | dumpMany cls vs =>
      if (classes cls).metadata.dumpFastPath && opts.plain then ∀ v ∈ vs, v.Safe P
      else ∀ v ∈ vs, Serializers.Handled P R classes opts v
  | view w v => ViewHandled P R classes opts w v
  | viewMany w vs => ∀ v ∈ vs, ViewHandled P R classes opts w v

variable {P R classes opts}

theorem clean_map_list {Q : Prop} {x : Except DumpError (List Out)} {o : Out}
    (h : x.map Out.list = .ok o) (hx : ∀ os, x = .ok os → ((∀ a ∈ os, a.Clean P) ↔ Q)) :
    o.Clean P ↔ Q := by
  cases x with
  | error e => cases h
  | ok os =>
    rw [← Except.ok.inj h, clean_list]
    exact hx os rfl

theorem result_clean {call : DumpCall} {o : Out} (h : call.result R classes opts = .ok o) :
    o.Clean P ↔ call.Handled P R classes opts := by
  cases call with
  | dump v => exact (dump_agrees v).self o h
  | dumpMany cls vs =>
    refine clean_map_list h (fun os hos => ?_)
    rw [Serializers.dumpMany] at hos
    rw [Handled]
    split at hos
    · rename_i hf
      rw [if_pos hf]
      exact dumpManyFast_clean hos
    · rename_i hf
      rw [if_neg hf]
      exact all_agree vs os hos
  | view w v => exact viewDump_clean h
  | viewMany w vs => exact clean_map_list h (fun os => viewDumpMany_clean)

end

end DumpCall

namespace Hierarchy

variable (H : Hierarchy)

def Protected (p : Owned) : Prop := protectedField (H.defs p.1) p.2 = true

instance : DecidablePred H.Protected := fun _ => inferInstanceAs (Decidable (_ = true))

def readied (s : Classes) : DumpCall → Classes
  | .dump (.object cls _) => H.ensureReady s cls
  | .dump _ => s
  | .dumpMany cls _ => H.ensureReady s cls
  | .view w _ => H.ensureReady s w.serializerClass
  | .viewMany w _ => H.ensureReady s w.serializerClass

def output (s : Classes) (R : Runtime) (opts : DumpOptions) (json : Bool) (call : DumpCall) :
    Except CallError Output :=
  let classes := H.dumpClasses (H.readied s call)
  match call.result R classes opts with
  | .error e => .error (.dump e)
  | .ok o =>
      if json then
        match encode classes o with
        | .error e => .error (.encode e)
        | .ok j => .ok (.bytes j)
      else .ok (.python o)

variable {H}

theorem hides_protected_iff {s : Classes} {R : Runtime} {opts : DumpOptions} {json : Bool}
    {call : DumpCall} {out : Output} (h : H.output s R opts json call = .ok out) :
    (∀ p ∈ out.exposes, ¬H.Protected p) ↔
      call.Handled H.Protected R (H.dumpClasses (H.readied s call)) opts := by
  simp only [output] at h
  cases hr : call.result R (H.dumpClasses (H.readied s call)) opts with
  | error e =>
    rw [hr] at h
    cases h
  | ok o =>
    rw [← DumpCall.result_clean hr]
    simp only [hr] at h
    cases json with
    | false =>
      simp only [Bool.false_eq_true, if_false, Except.ok.injEq] at h
      rw [← h]
      rfl
    | true =>
      cases he : encode (H.dumpClasses (H.readied s call)) o with
      | error e =>
        simp only [if_true, he] at h
        cases h
      | ok j =>
        simp only [if_true, he, Except.ok.injEq] at h
        rw [← h, Out.Clean, ← exposes_encode o j he]
        rfl

def ann : SerValue := .object "Member" [("name", .atom "Ann"), ("password", .atom "hunter2")]

def team (members : List (SerValue × SerValue)) : SerValue :=
  .object "Team" [("lead", ann), ("members", .dict members)]

def plainOptions : DumpOptions := ⟨false, false, false, false⟩

def noComputed : Runtime := ⟨fun _ _ => false, fun _ _ _ => none⟩

def definedTeams : List Event :=
  [.define "Account", .define "Member", .define "Team", .use "Member", .use "Team"]

def leadJson : Json :=
  .object (some "Team")
    [("lead", .field "lead", .object (some "Member") [("name", .field "name", .text "Ann")]),
      ("members", .field "members", .object none [])]

theorem lead_password_hidden :
    ∃ s, accounts.run definedTeams = some s ∧
      accounts.output s noComputed plainOptions true (.dump (team [])) = .ok (.bytes leadJson) ∧
      (DumpCall.dump (team [])).Handled accounts.Protected noComputed
        (accounts.dumpClasses (accounts.readied s (.dump (team [])))) plainOptions := by
  have hclean : ∀ p ∈ (Output.bytes leadJson).exposes, ¬accounts.Protected p := by decide
  refine ⟨_, rfl, rfl, ?_⟩
  apply (hides_protected_iff ?_).mp hclean
  exacts [true, rfl]

theorem member_password_exposed :
    ∃ s out, accounts.run definedTeams = some s ∧
      accounts.output s noComputed plainOptions true (.dump (team [(.atom "ann", ann)])) =
        .ok out ∧
      ∃ p ∈ out.exposes, accounts.Protected p :=
  ⟨_, _, rfl, rfl, ("Member", "password"), by decide, by decide⟩

end Hierarchy

end DjangoBolt.Serializers
