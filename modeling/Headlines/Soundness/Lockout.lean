import Headlines.Api.Keys
import Headlines.Api.Server

/-! # The last active key

A revoke counts the active keys of the account or user, looks its key up and revokes it, each with a
statement of its own. Two revokes that have both counted two keys leave none. Where another key is
still active whenever a revoke that counted more than its own key takes effect, only a system with
`admin.*` takes the last one.
-/

namespace Headlines.Soundness.Lockout

open Core Autocommit Store Api

abbrev Event := Autocommit.Event KeyStatement.Result Answer
abbrev Session := Autocommit.Session KeyStatement.Result Answer KeyRequest (Except Status KeyResponse)
abbrev State := Autocommit.State KeyStatement.Result Answer KeyRequest (Except Status KeyResponse) KeyStore
abbrev Label := Autocommit.Label Answer KeyRequest KeyStore

/-- The caller holds `admin.*`. -/
def Admin (request : KeyRequest) : Prop := request.subject.hasScope "admin.*"

/-- The session has counted active keys of the parent. -/
def Counted (past : List Event) (kind : KeyKind) (parentId : Uuid) (active : List KeyRow) : Prop :=
  .ran (.selectActive kind parentId) (.ok active) ∈ past

/-- The caller may take the last key, or a count did not find the key alone. -/
def MayRevoke (request : KeyRequest) (kind : KeyKind) (parentId keyId : Uuid) (past : List Event) : Prop :=
  Admin request ∨ ∃ active, Counted past kind parentId active ∧
    lastActive (active.map (KeyRow.intoDomain kind)) keyId = false

/-- A key is revoked only by who may. -/
def Justified (request : KeyRequest) (past : List Event) (statement : KeyStatement) : Prop :=
  ∀ kind parentId keyId now, statement = .revokeKey kind parentId keyId now →
    MayRevoke request kind parentId keyId past

variable {service : KeyService} {past : List Event} {request : KeyRequest}

theorem MayRevoke.cons {kind : KeyKind} {parentId keyId : Uuid} (may : MayRevoke request kind parentId keyId past)
    (event : Event) : MayRevoke request kind parentId keyId (event :: past) :=
  may.imp_right fun ⟨active, counted, others⟩ => ⟨active, List.mem_cons_of_mem _ counted, others⟩

section Handlers

variable {ρ : Type} {kind : KeyKind} {parentId keyId : Uuid}

private theorem execute_safe {statement : KeyStatement} {context : String} {post : statement.Result → List Event → Prop}
    (other : ∀ kind parentId keyId now, statement ≠ .revokeKey kind parentId keyId now)
    (ran : ∀ result, post result (.ran statement (.ok result) :: past)) :
    Throwing.Safe (Justified request) post (KeyDb.execute statement context) past :=
  .execute _ (fun kind parentId keyId now same => absurd same (other kind parentId keyId now)) ran

private theorem getAccount_safe (id : Uuid) :
    Throwing.Safe (Justified request) (fun _ _ => True) (KeyDb.getAccount id) past :=
  .skip (execute_safe nofun fun _ => trivial) fun _ _ => .skip (execute_safe nofun fun _ => trivial) fun _ _ =>
    .skip (.okOr fun _ _ => trivial) fun _ _ => .pure trivial

private theorem getUser_safe (id : Uuid) :
    Throwing.Safe (Justified request) (fun _ _ => True) (KeyDb.getUser id) past :=
  .skip (execute_safe nofun fun _ => trivial) fun _ _ => .skip (execute_safe nofun fun _ => trivial) fun _ _ =>
    .skip (.okOr fun _ _ => trivial) fun _ _ => .pure trivial

private theorem create_safe (new : NewKey) :
    Throwing.Safe (Justified request) (fun _ _ => True) (PgKeyRepo.create new) past := by
  obtain ⟨kind, parentId, keyId, algo, publicKey⟩ := new
  cases kind with
  | system => exact fun _ same => nomatch same
  | account | user =>
    refine .skip (execute_safe nofun fun _ => trivial) fun _ _ => ?_
    refine .skip (.ask _ fun _ => trivial) fun _ _ => ?_
    exact .skip (execute_safe nofun fun _ => trivial) fun _ _ => .pure trivial

/-- A count leaves its rows in the past. -/
private theorem listActive_safe (wired : kind ≠ .system) :
    Throwing.Safe (Justified request) (fun active past => ∃ rows, Counted past kind parentId rows ∧
      active = rows.map (KeyRow.intoDomain kind)) (PgKeyRepo.listActive kind parentId) past := by
  cases kind with
  | system => contradiction
  | account | user =>
    refine .skip (execute_safe nofun fun _ => trivial) fun _ past => ?_
    refine .bind (execute_safe nofun fun rows => ?_) fun rows _ counted => .pure ⟨rows, counted, rfl⟩
    exact List.mem_cons_self

private theorem revoke_safe (may : MayRevoke request kind parentId keyId past) :
    Throwing.Safe (Justified request) (fun _ _ => True) (PgKeyRepo.revoke kind parentId keyId) past := by
  cases kind with
  | system => exact fun _ same => nomatch same
  | account | user =>
    refine .keep (execute_safe nofun fun _ => may.cons _) fun _ _ may => ?_
    refine .keep (execute_safe nofun fun _ => may.cons _) fun _ _ may => ?_
    refine .keep (.okOr fun _ _ => may) fun _ _ may => ?_
    refine .keep (.require fun _ => may) fun _ _ may => ?_
    refine .keep (.ask _ fun _ => may.cons _) fun _ _ may => ?_
    refine .skip (.execute _ ?_ fun _ => trivial) fun _ _ => .skip (.okOr fun _ _ => trivial) fun _ _ => .pure trivial
    rintro _ _ _ _ ⟨⟩
    exact may

/-- The part of a revoke that the two services share. -/
private theorem guarded_safe {respond : StoredKey → ρ} (wired : kind ≠ .system) :
    Throwing.Safe (Justified request) (fun _ _ => True) (do
      let active ← KeyHandler.repo (PgKeyRepo.listActive kind parentId)
      Throwing.require (!(lastActive active keyId && !request.subject.hasScope "admin.*")) (.domain .lastActiveKey)
      let revoked ← KeyHandler.repo (PgKeyRepo.revoke kind parentId keyId)
      return respond revoked : KeyHandler ρ) past := by
  refine .bind (.adapt (listActive_safe wired)) ?_
  rintro active later ⟨rows, counted, rfl⟩
  have checked : Throwing.Safe (Justified request) (fun _ past => MayRevoke request kind parentId keyId past)
      (Throwing.require (!(lastActive (rows.map (KeyRow.intoDomain kind)) keyId && !request.subject.hasScope "admin.*"))
        (.domain .lastActiveKey) : KeyHandler Unit) later := by
    refine .require fun allowed => ?_
    by_cases admin : request.subject.hasScope "admin.*"
    · exact .inl admin
    · exact .inr ⟨rows, counted, by simpa [admin] using allowed⟩
  exact checked.keep fun _ _ may => .skip (.adapt (revoke_safe may)) fun _ _ => .pure trivial

/-- The handlers revoke a key only where they may. -/
theorem handlers_safe (request : KeyRequest) :
    (service.system.program request).Safe (Justified request) (fun _ _ => True) [] := by
  have handled : Throwing.Safe (Justified request) (fun _ _ => True) (service.handle request) [] := by
    cases request with
    | addAccountKey subject request =>
      refine .map ?_
      refine .skip (.ofExcept fun _ _ => trivial) fun _ _ => .skip (.require fun _ => trivial) fun _ _ => ?_
      refine .skip (.adapt (getAccount_safe _)) fun _ _ => .skip (.require fun _ => trivial) fun _ _ => ?_
      refine .skip (.okOr fun _ _ => trivial) fun _ _ => .skip (.ofExcept fun _ _ => trivial) fun _ _ => ?_
      exact .skip (.ask _ fun _ => trivial) fun _ _ => .skip (.adapt (create_safe _)) fun _ _ => .pure trivial
    | addUserKey subject request =>
      refine .map ?_
      refine .skip (.ofExcept fun _ _ => trivial) fun _ _ => .skip (.require fun _ => trivial) fun _ _ => ?_
      refine .skip (.adapt (getUser_safe _)) fun _ _ => .skip (.require fun _ => trivial) fun _ _ => ?_
      refine .skip (.okOr fun _ _ => trivial) fun _ _ => .skip (.ofExcept fun _ _ => trivial) fun _ _ => ?_
      exact .skip (.ask _ fun _ => trivial) fun _ _ => .skip (.adapt (create_safe _)) fun _ _ => .pure trivial
    | revokeAccountKey subject request =>
      refine .map ?_
      refine .skip (.ofExcept fun _ _ => trivial) fun _ _ => .skip (.ofExcept fun _ _ => trivial) fun _ _ => ?_
      refine .skip (.require fun _ => trivial) fun _ _ => .skip (.adapt (getAccount_safe _)) fun _ _ => ?_
      exact .skip (.require fun _ => trivial) fun _ _ => guarded_safe nofun
    | revokeUserKey subject request =>
      refine .map ?_
      refine .skip (.ofExcept fun _ _ => trivial) fun _ _ => .skip (.ofExcept fun _ _ => trivial) fun _ _ => ?_
      exact .skip (.require fun _ => trivial) fun _ _ => guarded_safe nofun
  exact Program.Safe.mono handled fun _ _ _ => trivial

end Handlers

/-- The active keys of an account or user. -/
def active (s : State) (kind : KeyKind) (parentId : Uuid) : List KeyRow := (s.store.keys kind).active parentId

/-- Where a caller without `admin.*` is about to revoke an active key, after a count that did not find that
key alone, some other key of the parent is active. -/
def Current (s : State) : Label → Prop
  | .outside store => store.keys = s.store.keys
  | .proceed id => ∀ session kind parentId keyId now rows, s.sessions id = some session →
      session.statement = some (.revokeKey kind parentId keyId now) → ¬ Admin session.request →
      Counted session.past kind parentId rows → lastActive (rows.map (KeyRow.intoDomain kind)) keyId = false →
      (∃ row ∈ active s kind parentId, row.keyId = keyId) → ∃ row ∈ active s kind parentId, row.keyId ≠ keyId
  | _ => True

variable {s after : State} {label : Label} {guard : State → Label → Prop}

/-- A statement takes no key from the active ones, but for the one it revokes. -/
private theorem active_of_execute {statement : KeyStatement} {store later : KeyStore} {result : statement.Result}
    {kind : KeyKind} {parentId : Uuid} {row : KeyRow} (ran : statement.execute store = .ok (result, later))
    (held : row ∈ (store.keys kind).active parentId) :
    row ∈ (later.keys kind).active parentId ∨ ∃ now, statement = .revokeKey kind parentId row.keyId now := by
  cases statement with
  | acquire | selectAccount | selectUser | selectKey | selectActive =>
    cases ran
    exact .inl held
  | insertKey own added =>
    simp only [KeyStatement.execute] at ran
    split at ran
    · contradiction
    · next table inserted =>
      split at ran
      · cases ran
        left
        rcases eq_or_ne kind own with rfl | differs
        · rw [KeyStore.setKeys_self]
          exact KeyTable.active_insert inserted held
        · rwa [KeyStore.setKeys_of_ne _ differs]
      · contradiction
  | revokeKey own parent key now =>
    cases ran
    rcases eq_or_ne kind own with rfl | differs
    · rw [KeyStore.setKeys_self]
      exact (KeyTable.active_revoke held parent key now).imp_right fun ⟨same, again⟩ => ⟨now, by rw [same, again]⟩
    · rw [KeyStore.setKeys_of_ne _ differs]
      exact .inl held

/-- A step that leaves a parent without active keys is a revoke by a caller who may. -/
private theorem emptied {kind : KeyKind} {parentId : Uuid} (sound : System.Sound Justified s) (current : Current s label)
    (step : service.system.next s label = some after) (held : active s kind parentId ≠ [])
    (gone : active after kind parentId = []) :
    ∃ id session, label = .proceed id ∧ s.sessions id = some session ∧ Admin session.request := by
  have kept (same : after.store.keys = s.store.keys) : False := by
    rw [active, same] at gone
    exact held gone
  rcases System.store_cases step with same | rfl | ⟨id, session, statement, result, rfl, found, about, ran⟩
  · exact (kept (congrArg KeyStore.keys same)).elim
  · exact (kept current).elim
  refine ⟨id, session, rfl, found, ?_⟩
  -- Every active key is the one that is revoked.
  have revoked (row : KeyRow) (member : row ∈ active s kind parentId) :
      ∃ now, statement = .revokeKey kind parentId row.keyId now := by
    refine (active_of_execute ran member).resolve_left fun remains => ?_
    rw [active] at gone
    rw [gone] at remains
    exact List.not_mem_nil remains
  obtain ⟨row, member⟩ := List.exists_mem_of_ne_nil _ held
  obtain ⟨now, rfl⟩ := revoked row member
  by_contra other
  obtain ⟨rows, counted, others⟩ := (sound.statement found about kind parentId row.keyId now rfl).resolve_left other
  obtain ⟨second, also, differs⟩ :=
    current session kind parentId row.keyId now rows found about other counted others ⟨row, member, rfl⟩
  obtain ⟨_, same⟩ := revoked second also
  exact differs (KeyStatement.revokeKey.inj same).2.2.1.symm

/-- Any other revoke by such a caller takes the last key. -/
theorem taken_of_not_current {id : ℕ} (stale : ¬ Current s (.proceed id)) :
    ∃ session kind parentId removed, s.sessions id = some session ∧ ¬ Admin session.request ∧
      active s kind parentId ≠ [] ∧ service.system.next s (.proceed id) = some removed ∧
      active removed kind parentId = [] := by
  simp only [Current, not_forall] at stale
  obtain ⟨session, kind, parentId, keyId, now, rows, found, about, other, _, _, ⟨row, member, _⟩, alone⟩ := stale
  have only (row : KeyRow) (member : row ∈ active s kind parentId) : row.keyId = keyId := by
    by_contra differs
    exact alone ⟨row, member, differs⟩
  obtain ⟨removed, step, store⟩ := System.proceed_of_execute found about (show service.system.execute _ s.store = _ from rfl)
  refine ⟨session, kind, parentId, removed, found, other, List.ne_nil_of_mem member, step, ?_⟩
  rw [active, store, KeyStore.setKeys_self, List.eq_nil_iff_forall_not_mem]
  intro row held
  obtain ⟨member, apart⟩ := KeyTable.active_of_revoke held
  exact apart ⟨rfl, (only row member).symm⟩

end Headlines.Soundness.Lockout
