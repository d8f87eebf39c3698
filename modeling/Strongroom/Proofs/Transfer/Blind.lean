import Strongroom.Proofs.Transfer.Acts

/-! # Calls begin without a look at the writer

A call of an upload begins without a look at the queue and at the writer, and
all that it takes from the service is random bytes. The same goes for what a
stream hands over.
-/

namespace Strongroom

namespace Upload

/-- The upload with another queue and another writer. -/
def beside (upload : Upload) (queue : List Bytes) (writer : Writer) : Upload :=
  { upload with queue, writer }

/-- The upload is not in a call that the store has spoilt, and flushes nothing. -/
def IsPlain (upload : Upload) : Prop :=
  match upload.call with
  | .joinForCause _ | .withdraw _ | .flushing _ _ => False
  | _ => True

/-- What becomes of an upload where neither the queue nor the writer matters. -/
structure Keeps (upload next : Upload) : Prop where
  queue : next.queue = upload.queue
  stopped : upload.stopped = true → next.stopped = true
  final : next.phase = .done ∨ next.phase = .failed → next.phase = upload.phase
  plain : next.IsPlain

/-- What looks neither at the queue nor at the writer, and at nothing of the
    service but the random source. -/
def Blind (begin : Service → Upload → Service × Upload) : Prop :=
  ∀ (upload : Upload) (random : Entropy), ∃ (random' : Entropy) (next : Upload),
    upload.Keeps next ∧ ∀ service : Service, service.random = random → ∀ queue writer,
      begin service (upload.beside queue writer) =
        ({ service with random := random' }, next.beside queue writer)

section

variable {upload : Upload} {queue : List Bytes} {writer : Writer}

theorem refuse?_beside :
    (upload.beside queue writer).refuse? = upload.refuse?.map (·.beside queue writer) := by
  unfold refuse?
  cases phase : upload.phase with
  | receiving =>
      cases fired : upload.cancelled with
      | true | false => simp [beside, phase, fired, abort]
  | writing | committing | done | failed => simp [beside, phase, abort, answer]

theorem refuse?_beside_of_none (allowed : upload.refuse? = none) (queue : List Bytes)
    (writer : Writer) : (upload.beside queue writer).refuse? = none := by
  rw [refuse?_beside, allowed]
  rfl

theorem Keeps.of_refuse {refused : Upload} (here : upload.refuse? = some refused) :
    upload.Keeps refused := by
  unfold refuse? at here
  split at here
  · split at here
    · cases here
      exact ⟨rfl, fun _ => rfl, fun _ => rfl, by exact trivial⟩
    · cases here
  · cases here
    exact ⟨rfl, fun _ => rfl, fun _ => rfl, by exact trivial⟩
  · cases here
    exact ⟨rfl, id, fun _ => rfl, by exact trivial⟩

theorem blind_write (data : Bytes) : Blind fun service upload => upload.write service data := by
  intro upload random
  cases refused : upload.refuse? with
  | some next =>
      refine ⟨random, next, .of_refuse refused, ?_⟩
      rintro service rfl queue writer
      simp only [write, refuse?_beside, refused, Option.map_some]
  | none =>
      cases present : upload.encoder with
      | none =>
          refine ⟨random,
            { upload with phase := .writing }.abort (.invalidInput "upload is closed"),
            ⟨rfl, fun _ => rfl, by simp [abort], by exact trivial⟩, ?_⟩
          rintro service rfl queue writer
          have allowed := refuse?_beside_of_none refused queue writer
          have absent : (upload.beside queue writer).encoder = none := present
          simp only [write, allowed, absent]
          rfl
      | some encoder =>
          rcases wrote : encoder.write data random with ⟨e | records, left, rest⟩
          · refine ⟨rest, { upload with phase := .writing, encoder := some left }.abort e,
              ⟨rfl, fun _ => rfl, by simp [abort], by exact trivial⟩, ?_⟩
            rintro service rfl queue writer
            have allowed := refuse?_beside_of_none refused queue writer
            have there : (upload.beside queue writer).encoder = some encoder := present
            simp only [write, allowed, there, wrote]
            rfl
          · refine ⟨rest, { upload with
              phase := .writing, encoder := some left, call := .handOff records },
              ⟨rfl, id, by simp, by exact trivial⟩, ?_⟩
            rintro service rfl queue writer
            have allowed := refuse?_beside_of_none refused queue writer
            have there : (upload.beside queue writer).encoder = some encoder := present
            simp only [write, allowed, there, wrote]
            rfl

theorem blind_commit : Blind fun service upload => upload.commit service := by
  intro upload random
  cases refused : upload.refuse? with
  | some next =>
      refine ⟨random, next, .of_refuse refused, ?_⟩
      rintro service rfl queue writer
      simp only [commit, refuse?_beside, refused, Option.map_some]
  | none =>
      cases present : upload.encoder with
      | none =>
          refine ⟨random,
            { upload with phase := .committing }.abort (.invalidInput "upload is closed"),
            ⟨rfl, fun _ => rfl, by simp [abort], by exact trivial⟩, ?_⟩
          rintro service rfl queue writer
          have allowed := refuse?_beside_of_none refused queue writer
          have absent : (upload.beside queue writer).encoder = none := present
          simp only [commit, allowed, absent]
          rfl
      | some encoder =>
          rcases finished : encoder.finish random with ⟨e | record, rest⟩
          · refine ⟨rest, { upload with phase := .committing, encoder := none }.abort e,
              ⟨rfl, fun _ => rfl, by simp [abort], by exact trivial⟩, ?_⟩
            rintro service rfl queue writer
            have allowed := refuse?_beside_of_none refused queue writer
            have there : (upload.beside queue writer).encoder = some encoder := present
            simp only [commit, allowed, there, finished]
            rfl
          · refine ⟨rest, { upload with
              phase := .committing, encoder := none
              call := .handOffFinal record encoder.received },
              ⟨rfl, id, by simp, by exact trivial⟩, ?_⟩
            rintro service rfl queue writer
            have allowed := refuse?_beside_of_none refused queue writer
            have there : (upload.beside queue writer).encoder = some encoder := present
            simp only [commit, allowed, there, finished]
            rfl

theorem blind_feed (items : List Inbound) :
    Blind fun service upload => feed service upload items := by
  intro upload random
  cases fired : upload.cancelled with
  | true =>
      refine ⟨random, { upload with inbound := none }.abort .cancelled,
        ⟨rfl, fun _ => rfl, fun _ => rfl, by exact trivial⟩, ?_⟩
      rintro service rfl queue writer
      simp only [feed, beside, fired, if_true]
      rfl
  | false =>
      cases items with
      | nil =>
          obtain ⟨random', next, keeps, same⟩ := blind_commit { upload with inbound := none } random
          refine ⟨random', next, ⟨keeps.queue, keeps.stopped, keeps.final, keeps.plain⟩, ?_⟩
          intro service here queue writer
          refine Eq.trans ?_ (same service here queue writer)
          simp only [feed, beside, fired, Bool.false_eq_true, if_false]
      | cons item rest =>
          let entered := { upload with
            inbound := some rest, cancelled := upload.cancelled || item.fires }
          cases handed : item.content with
          | ok data =>
              obtain ⟨random', next, keeps, same⟩ := blind_write data entered random
              refine ⟨random', next, ⟨keeps.queue, keeps.stopped, keeps.final, keeps.plain⟩, ?_⟩
              intro service here queue writer
              refine Eq.trans ?_ (same service here queue writer)
              simp only [feed, entered, beside, fired, handed, Bool.false_eq_true, if_false]
          | error text =>
              refine ⟨random, entered.abort (.io text),
                ⟨rfl, fun _ => rfl, fun _ => rfl, by exact trivial⟩, ?_⟩
              rintro service rfl queue writer
              simp only [feed, entered, beside, fired, handed, Bool.false_eq_true, if_false]
              rfl

def fedFrom (items : List Inbound) (upload : Upload) : Upload :=
  { upload with call := .idle, inbound := some items }

theorem blind_fedFrom (items : List Inbound) :
    Blind fun service upload => (service, upload.fedFrom items) := by
  intro upload random
  refine ⟨random, upload.fedFrom items, ⟨rfl, id, fun _ => rfl, by exact trivial⟩, ?_⟩
  rintro service rfl queue writer
  rfl

def wrote (upload : Upload) : Upload :=
  let upload := { upload with phase := .receiving }
  if upload.inbound.isSome then { upload with call := .idle } else upload.answer (.ok none)

theorem blind_wrote : Blind fun service upload => (service, upload.wrote) := by
  intro upload random
  cases inbound : upload.inbound with
  | none =>
      refine ⟨random, { upload with phase := .receiving, call := .answered (.ok none) },
        ⟨rfl, id, by simp, by exact trivial⟩, ?_⟩
      rintro service rfl queue writer
      simp [wrote, beside, answer, inbound]
  | some items =>
      refine ⟨random, { upload with phase := .receiving, call := .idle },
        ⟨rfl, id, by simp, by exact trivial⟩, ?_⟩
      rintro service rfl queue writer
      simp [wrote, beside, inbound]

end

end Upload

end Strongroom
