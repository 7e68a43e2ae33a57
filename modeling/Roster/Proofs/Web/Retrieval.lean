import Roster.Command.Run
import Roster.Proofs.Record.Rules
import Roster.Proofs.Store.Index
import Roster.Web.Handler

/-!
# Showing a single record

A record that is asked for by its id is shown only if it keeps the rules, over HTTP as on the command
line: `Service.retrieval_outcomes`.

- **Looking up** (`Service.find_cases`) ends in one of three ways. The records decide in which
  (`find_eq_unknown_iff`, `exists_find_eq_broken_iff`, `exists_find_eq_ok_iff`).
- **Responding** (`status_recordResponse`): each of the three ways has a status of its own, and so
  has a text that is no id.
- **Printing** (`recordText_eq_error_iff`, `exists_recordText_eq_ok_iff`): the command fails as looking
  up fails, and otherwise it prints.
-/

namespace Roster

open Number Web

/-! ## Looking up -/

namespace Service

/-- Looking up an id ends in one of three ways. -/
theorem find_cases (s : Service) (n : Int64) :
    s.find n = .error (.lookup (.unknownId n)) ∨
      (∃ fault, s.find n = .error (.lookup (.badRecord n fault))) ∨ ∃ r, s.find n = .ok r := by
  unfold find
  split
  · exact .inl rfl
  · rename_i r _
    cases r.check with
    | error fault => exact .inr (.inl ⟨fault, rfl⟩)
    | ok => exact .inr (.inr ⟨r, rfl⟩)

section Stored

variable {records : List Record} {origin : String} {store : Store} {settings : Settings}

theorem find?_eq_some_iff_mem (h : Store.ofRecords records origin = .ok store) {n : Int64}
    {r : Record} : store.find? n = some r ↔ r ∈ records ∧ r.id = n := by
  rw [Store.find?_eq_some_iff h, Store.records_of_ofRecords h]

/-- No record is found exactly if none has the id. -/
theorem find_eq_unknown_iff (h : Store.ofRecords records origin = .ok store) {n : Int64} :
    (⟨settings, store⟩ : Service).find n = .error (.lookup (.unknownId n)) ↔
      ∀ r ∈ records, r.id ≠ n := by
  have hnone : store.find? n = none ↔ ∀ r ∈ records, r.id ≠ n := by
    simp [Option.eq_none_iff_forall_ne_some, find?_eq_some_iff_mem h]
  rw [← hnone]
  unfold find
  cases store.find? n with
  | none => simp
  | some r => cases hcheck : r.check <;> simp [hcheck]

/-- A broken rule is reported exactly if a record with the id breaks one. -/
theorem exists_find_eq_broken_iff (h : Store.ofRecords records origin = .ok store) {n : Int64} :
    (∃ fault, (⟨settings, store⟩ : Service).find n = .error (.lookup (.badRecord n fault))) ↔
      ∃ r ∈ records, r.id = n ∧ ¬ r.IsComplete := by
  simp only [← and_assoc, ← find?_eq_some_iff_mem h, ← Record.check_eq_ok_iff]
  unfold find
  cases store.find? n with
  | none => simp
  | some r => cases hcheck : r.check <;> simp [hcheck]

/-- A record is found exactly if it has the id and is complete. -/
theorem find_eq_ok_iff (h : Store.ofRecords records origin = .ok store) {n : Int64} {r : Record} :
    (⟨settings, store⟩ : Service).find n = .ok r ↔ r ∈ records ∧ r.id = n ∧ r.IsComplete := by
  rw [← and_assoc, ← find?_eq_some_iff_mem h, ← Record.check_eq_ok_iff]
  unfold find
  cases store.find? n with
  | none => simp
  | some s =>
    cases hcheck : s.check with
    | error fault =>
      simp only [hcheck, reduceCtorEq, false_iff, not_and, Option.some.injEq]
      rintro rfl
      simp [hcheck]
    | ok =>
      simp only [hcheck, Except.ok.injEq, Option.some.injEq]
      exact ⟨fun heq => ⟨heq, heq ▸ hcheck⟩, And.left⟩

end Stored

/-! ## Printing -/

variable {s : Service} {color : Bool} {n : Int64} {output : OutputFormat}

theorem recordText_eq_error_iff {failure : Failure} :
    s.recordText color n output = .error failure ↔ s.find n = .error failure := by
  unfold recordText
  cases s.find n <;> simp [bind, Except.bind, pure, Except.pure]

theorem exists_recordText_eq_ok_iff :
    (∃ printed, s.recordText color n output = .ok printed) ↔ ∃ r, s.find n = .ok r := by
  unfold recordText
  cases s.find n <;> simp [bind, Except.bind, pure, Except.pure]

end Service

/-! ## Responding -/

namespace Web

variable {s : Service} {segment text : String}

/-- A text that is no id is refused, and nothing is looked up. -/
theorem recordResponse_of_notInteger (htext : segmentText? segment = some text)
    (hid : int64? text.toList = none) :
    recordResponse s segment = failureResponse (.parameter "user_id" (.notInteger text)) := by
  simp only [recordResponse, htext, hid]

/-- What is sent for an id is what looking it up ends with. -/
theorem recordResponse_of_id {n : Int64} (htext : segmentText? segment = some text)
    (hid : int64? text.toList = some n) :
    recordResponse s segment =
      match s.find n with
      | .ok r => .ofJson 200 r.json
      | .error failure => failureResponse failure := by
  cases hfind : s.find n <;> simp only [recordResponse, htext, hid, hfind]

@[simp] theorem status_failureResponse (failure : Failure) :
    (failureResponse failure).status = failure.status := rfl

@[simp] theorem status_ofJson (status : Nat) (json : Json) :
    (HttpResponse.ofJson status json).status = status := rfl

/-- Each way in which looking up an id ends has its status. -/
theorem status_recordResponse {n : Int64} (htext : segmentText? segment = some text)
    (hid : int64? text.toList = some n) :
    (recordResponse s segment).status ≠ 422 ∧
    ((recordResponse s segment).status = 404 ↔ s.find n = .error (.lookup (.unknownId n))) ∧
    ((recordResponse s segment).status = 500 ↔
      ∃ fault, s.find n = .error (.lookup (.badRecord n fault))) ∧
    ((recordResponse s segment).status = 200 ↔ ∃ r, s.find n = .ok r) := by
  rw [recordResponse_of_id htext hid]
  rcases s.find_cases n with hfind | ⟨fault, hfind⟩ | ⟨r, hfind⟩
  · simp [hfind, Failure.status]
  · simp [hfind, Failure.status]
  · simp [hfind]

/-- A request for the path of a record gets what the handler gives, but no body where only the head
is asked for. -/
theorem respond_record {request : HttpRequest}
    (hmethod : request.method = "GET" ∨ request.method = "HEAD")
    (hroute : Route.ofPath? (Target.ofText request.target).path = some (.record segment)) :
    (s.respond request).status = (recordResponse s segment).status ∧
      (request.method = "GET" → (s.respond request).body = (recordResponse s segment).body) := by
  unfold Service.respond
  simp only [hroute, HttpResponse.withHeaders]
  rcases hmethod with hmethod | hmethod
  · simp [hmethod, routeResponse, Route.methods, getResponse]
  · simp [hmethod, routeResponse, Route.methods, getResponse]

end Web

/-- **Single records.** A request for a record is refused with 422 exactly if its text is no id.
Otherwise it ends with 404 exactly if no record has the id, with 500 exactly if a record with the id
breaks a rule, and with 200 exactly if a record with the id is complete; this record is then the body
of the response. The command for an id ends in the same three ways: it fails because there is no
record, it fails because the record breaks a rule, or it prints. -/
theorem Service.retrieval_outcomes {records : List Record} {origin : String} {store : Store}
    (h : Store.ofRecords records origin = .ok store) (settings : Settings) {request : HttpRequest}
    {segment text : String} (hmethod : request.method = "GET" ∨ request.method = "HEAD")
    (hroute : Route.ofPath? (Target.ofText request.target).path = some (.record segment))
    (htext : segmentText? segment = some text) :
    let s : Service := ⟨settings, store⟩
    let response := s.respond request
    (response.status = 422 ↔ int64? text.toList = none) ∧
    (∀ n, int64? text.toList = some n →
      (response.status = 404 ↔ ∀ r ∈ records, r.id ≠ n) ∧
      (response.status = 500 ↔ ∃ r ∈ records, r.id = n ∧ ¬ r.IsComplete) ∧
      (response.status = 200 ↔ ∃ r ∈ records, r.id = n ∧ r.IsComplete) ∧
      ∀ r ∈ records, r.id = n → r.IsComplete → request.method = "GET" →
        response.body = r.json.compact) ∧
    ∀ (n : Int64) (color : Bool) (output : OutputFormat),
      (s.recordText color n output = .error (.lookup (.unknownId n)) ↔ ∀ r ∈ records, r.id ≠ n) ∧
      ((∃ fault, s.recordText color n output = .error (.lookup (.badRecord n fault))) ↔
        ∃ r ∈ records, r.id = n ∧ ¬ r.IsComplete) ∧
      ((∃ printed, s.recordText color n output = .ok printed) ↔
        ∃ r ∈ records, r.id = n ∧ r.IsComplete) := by
  intro s response
  have hfound (n : Int64) : (∃ r, s.find n = .ok r) ↔ ∃ r ∈ records, r.id = n ∧ r.IsComplete :=
    exists_congr fun r => find_eq_ok_iff h
  obtain ⟨hstatus, hbody⟩ := respond_record (s := s) hmethod hroute
  refine ⟨⟨fun hrefused => ?_, fun hid => ?_⟩, fun n hid => ?_, fun n color output => ?_⟩
  · cases hid : int64? text.toList with
    | none => rfl
    | some n => exact absurd (hstatus.symm.trans hrefused) (status_recordResponse htext hid).1
  · rw [show response.status = _ from hstatus, recordResponse_of_notInteger htext hid]
    rfl
  · obtain ⟨-, hunknown, hbroken, hshown⟩ := status_recordResponse (s := s) htext hid
    rw [← hstatus] at hunknown hbroken hshown
    refine ⟨hunknown.trans (find_eq_unknown_iff h), hbroken.trans (exists_find_eq_broken_iff h),
      hshown.trans (hfound n), fun r hr hrid hcomplete hget => ?_⟩
    have hfind : s.find n = .ok r := (find_eq_ok_iff h).mpr ⟨hr, hrid, hcomplete⟩
    rw [show response.body = _ from hbody hget, recordResponse_of_id htext hid, hfind]
    rfl
  · simp only [recordText_eq_error_iff, exists_recordText_eq_ok_iff]
    exact ⟨find_eq_unknown_iff h, exists_find_eq_broken_iff h, hfound n⟩

/-- Of two records one lacks nearly everything: its id, given with an escape, ends with 500. -/
theorem Service.retrieval_outcomes_incomplete :
    ∃ store, Store.ofRecords [{ id := 20, name := "Ann" }, { id := 3 }] "list" = .ok store ∧
      (Service.respond ⟨{}, store⟩ { target := "/api/data/%320" }).status = 500 := by
  obtain ⟨store, hstore⟩ := Store.exists_ofRecords_iff.mpr
    (⟨by decide, by decide⟩ : Store.IsIndexable [{ id := 20, name := "Ann" }, { id := 3 }])
  have hroute : Route.ofPath? (Target.ofText "/api/data/%320").path = some (.record "%320") := by
    decide
  have htext : segmentText? "%320" = some "20" := by decide +kernel
  have hbroken : ∃ r ∈ [({ id := 20, name := "Ann" } : Record), { id := 3 }],
      r.id = 20 ∧ ¬ r.IsComplete := by
    refine ⟨_, List.mem_cons_self, rfl, fun hcomplete => ?_⟩
    obtain ⟨s, hs, -⟩ := hcomplete.email
    cases hs
  let request : HttpRequest := { target := "/api/data/%320" }
  have hmethod : request.method = "GET" ∨ request.method = "HEAD" := .inl rfl
  obtain ⟨-, hstatus, -⟩ := retrieval_outcomes hstore {} hmethod hroute htext
  exact ⟨store, hstore, (hstatus 20 (by decide)).2.1.mpr hbroken⟩

end Roster
