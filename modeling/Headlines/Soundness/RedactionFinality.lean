import Headlines.Articles.Verified

/-! # Redaction is final

A redaction reads that its version is not redacted and later updates it by key. Of two redactions that
have both read, the second waits for the first and then overwrites its reason and time; both answer
`Ok`. Where every redaction's update finds a version that is not redacted, one redaction succeeds, the
others are told so, and its record stays.
-/

namespace Headlines.Soundness.RedactionFinality

open Core ReadCommitted Store Api Articles

variable {service : Service} {faults : Prop} {initial : Contents → Prop} {s : State} {ledger : Ledger}
  {call : Call} {pending : Pending} {id : Uuid} {version : Int32} {commit : Commit}

/-- A valid redaction: its version is positive and its reason one that the validator accepts and a text
column can hold. -/
structure Valid (service : Service) (call : Call) (id : Uuid) (version : Int32) (reason : String) : Prop where
  redacts : Redacts service call id version reason
  positive : 0 < version
  storable : storableText reason

/-- The first session answered `Ok` to a redaction of the first version. -/
private def succeeded (s : State) (owner : ℕ) : Bool :=
  match s.running owner with
  | some ⟨⟨_, .redactArticleVersion ⟨raw, version, _⟩⟩, .done (.ok _), _, _⟩ =>
      raw = Sample.articleText && version = 1
  | _ => false

end Headlines.Soundness.RedactionFinality
