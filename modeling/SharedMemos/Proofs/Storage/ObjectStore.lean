import SharedMemos.Proofs.Lookup
import SharedMemos.Storage.ObjectStore

/-!
# Which calls change the objects of a store

A call notes its key, then fails or acts. Only storing, removing and joining the parts of an upload
change what objects there are, and each of them touches one key.

## Main results

* `ObjectStore.call_cases` — a call fails or acts
* `ObjectStore.call_objects` — acts that leave the objects alone
* `ObjectStore.call_failures` — acts that leave alone which calls fail
-/

namespace SharedMemos.Storage.ObjectStore

variable {α : Type} {s : ObjectStore} {key other : String} {content : Blob}

@[simp] theorem see_objects (s : ObjectStore) (key : String) : (s.see key).objects = s.objects := by
  rw [see]
  split <;> rfl

theorem see_uploads (s : ObjectStore) (key : String) : (s.see key).uploads = s.uploads := by
  rw [see]
  split <;> rfl

theorem see_failures (s : ObjectStore) (key : String) :
    (s.see key).failures = s.failures := by
  rw [see]
  split <;> rfl

/-- A call fails or acts. -/
theorem call_cases (s : ObjectStore) (what : Call) (key : String)
    (act : ObjectStore → Except Error α × ObjectStore) :
    (∃ e, s.call what key act = (.error e, s.see key)) ∨ s.call what key act = act (s.see key) := by
  unfold ObjectStore.call
  dsimp only
  split
  · exact .inl ⟨_, rfl⟩
  · exact .inr rfl

/-- A call whose act leaves the objects alone leaves them alone. -/
theorem call_objects {what : Call} {act : ObjectStore → Except Error α × ObjectStore}
    (h : ∀ s, (act s).2.objects = s.objects) : (s.call what key act).2.objects = s.objects := by
  rcases call_cases s what key act with ⟨e, hcall⟩ | hcall
  · rw [hcall, see_objects]
  · rw [hcall, h, see_objects]

/-- A call whose act leaves alone which calls fail leaves it alone. -/
theorem call_failures {what : Call} {act : ObjectStore → Except Error α × ObjectStore}
    (h : ∀ s, (act s).2.failures = s.failures) : (s.call what key act).2.failures = s.failures := by
  rcases call_cases s what key act with ⟨e, hcall⟩ | hcall
  · rw [hcall, see_failures]
  · rw [hcall, h, see_failures]

/-- A call whose act leaves the uploads in parts alone leaves them alone. -/
theorem call_uploads {what : Call} {act : ObjectStore → Except Error α × ObjectStore}
    (h : ∀ s, (act s).2.uploads = s.uploads) : (s.call what key act).2.uploads = s.uploads := by
  rcases call_cases s what key act with ⟨e, hcall⟩ | hcall
  · rw [hcall, see_uploads]
  · rw [hcall, h, see_uploads]

theorem delete_uploads : (s.delete key).2.uploads = s.uploads :=
  call_uploads fun _ => rfl

theorem open_failures : (s.open key).2.failures = s.failures := by
  refine call_failures fun s => ?_
  split <;> rfl

theorem head_failures : (s.head key).2.failures = s.failures := by
  refine call_failures fun s => ?_
  split <;> rfl

theorem put_failures : (s.put key content).2.failures = s.failures :=
  call_failures fun _ => rfl

theorem delete_failures : (s.delete key).2.failures = s.failures :=
  call_failures fun _ => rfl

theorem abortUpload_failures {id : String} : (s.abortUpload key id).2.failures = s.failures :=
  call_failures fun _ => rfl

theorem open_objects : (s.open key).2.objects = s.objects := by
  refine call_objects fun s => ?_
  split <;> rfl

theorem exists?_objects : (s.exists? key).2.objects = s.objects := by
  rw [exists?]
  split
  · rfl
  · exact see_objects s key

theorem head_objects : (s.head key).2.objects = s.objects := by
  refine call_objects fun s => ?_
  split <;> rfl

theorem signPut_objects {contentType : String} {lifetime : Nat} :
    (s.signPut key contentType lifetime).2.objects = s.objects :=
  call_objects fun _ => rfl

theorem signPart_objects {upload : String} {number : Int} {lifetime : Nat} :
    (s.signPart key upload number lifetime).2.objects = s.objects :=
  call_objects fun _ => rfl

theorem createUpload_objects : (s.createUpload key).2.objects = s.objects := by
  refine call_objects fun s => ?_
  split <;> rfl

theorem listParts_objects {id : String} : (s.listParts key id).2.objects = s.objects := by
  refine call_objects fun s => ?_
  split <;> rfl

theorem abortUpload_objects {id : String} : (s.abortUpload key id).2.objects = s.objects :=
  call_objects fun _ => rfl

theorem sendPart_objects {id : String} {part : Upload.Part} :
    (s.sendPart id part).2.objects = s.objects := by
  rw [sendPart]
  split <;> rfl

/-! ### Single objects -/

theorem object?_of_objects {t : ObjectStore} (h : t.objects = s.objects) (key : String) :
    t.object? key = s.object? key := by
  rw [object?, object?, h]

theorem store_objects :
    (s.store key content).objects = (key, content) :: s.objects.filter (·.1 != key) := rfl

theorem object?_store_self : (s.store key content).object? key = some content := by
  rw [object?, store_objects, find?_cons_self, Option.map_some]

theorem object?_store_of_ne (h : other ≠ key) :
    (s.store key content).object? other = s.object? other := by
  rw [object?, store_objects, find?_cons_of_ne h, find?_filter_of_ne h, object?]

/-- An object that is there can be read, unless such calls fail. -/
theorem open_object (hworks : s.failure? .open = none) (h : s.object? key = some content) :
    (s.open key).1 = .ok content := by
  have hsee : (s.see key).failure? .open = none := by
    rw [failure?, see_failures]
    exact hworks
  rw [ObjectStore.open, «call», hsee, object?_of_objects (see_objects s key), h]

/-- The size that is told is that of an object that is there. -/
theorem object?_head {n : Int} {t : ObjectStore} (h : s.head key = (.ok n, t)) :
    ∃ content, s.object? key = some content ∧ n = content.size := by
  rw [head] at h
  rcases call_cases s .head key _ with ⟨e, hcall⟩ | hcall
  · rw [hcall] at h
    cases h
  · rw [hcall] at h
    split at h
    · rename_i content hcontent
      cases h
      rw [object?_of_objects (see_objects s key)] at hcontent
      exact ⟨content, hcontent, rfl⟩
    · cases h

/-- The parts that are told are those of the upload. -/
theorem upload?_listParts {id : String} {parts : List Upload.Part} {t : ObjectStore}
    (h : s.listParts key id = (.ok parts, t)) : ∃ u, s.upload? id = some u ∧ u.parts = parts := by
  rw [listParts] at h
  rcases call_cases s .listParts key _ with ⟨e, hcall⟩ | hcall
  · rw [hcall] at h
    cases h
  · rw [hcall] at h
    split at h
    · rename_i u hu
      cases h
      rw [upload?, see_uploads] at hu
      exact ⟨u, hu, rfl⟩
    · cases h

/-- What was stored is there. -/
theorem object?_put {n : Nat} {t : ObjectStore} (h : s.put key content = (.ok n, t)) :
    n = content.size ∧ t.object? key = some content := by
  rcases call_cases s .put key fun s => (.ok content.size, s.store key content)
    with ⟨e, hcall⟩ | hcall
  · rw [put, hcall] at h
    cases h
  · rw [put, hcall] at h
    cases h
    exact ⟨rfl, object?_store_self⟩

theorem object?_put_of_ne (h : other ≠ key) :
    (s.put key content).2.object? other = s.object? other := by
  rcases call_cases s .put key fun s => (.ok content.size, s.store key content)
    with ⟨e, hcall⟩ | hcall
  · rw [put, hcall, object?_of_objects (see_objects s key)]
  · rw [put, hcall, object?_store_of_ne h, object?_of_objects (see_objects s key)]

/-- Storing an object loses none. -/
theorem isSome_put (h : (s.object? other).isSome) :
    ((s.put key content).2.object? other).isSome := by
  by_cases hsame : other = key
  · subst hsame
    rcases call_cases s .put other fun s => (.ok content.size, s.store other content)
      with ⟨e, hcall⟩ | hcall
    · rw [put, hcall, object?_of_objects (see_objects s other)]
      exact h
    · rw [put, hcall, object?_store_self]
      rfl
  · rw [object?_put_of_ne hsame]
    exact h

theorem object?_delete_of_ne (h : other ≠ key) :
    (s.delete key).2.object? other = s.object? other := by
  rcases call_cases s .delete key fun s =>
    ((.ok (), { s with objects := s.objects.filter (·.1 != key) }) :
      Except Error Unit × ObjectStore)
    with ⟨e, hcall⟩ | hcall
  · rw [delete, hcall, object?_of_objects (see_objects s key)]
  · rw [delete, hcall, object?, find?_filter_of_ne h, see_objects, object?]

/-- Where there is no object, removing it brings none. -/
theorem object?_delete_of_none (h : s.object? key = none) :
    (s.delete key).2.object? key = none := by
  rw [delete]
  rcases call_cases s .delete key _ with ⟨e, hcall⟩ | hcall
  · rw [hcall, object?_of_objects (see_objects s key), h]
  · rw [hcall, object?, find?_filter_self, Option.map_none]

/-- What was removed is gone. -/
theorem object?_delete {t : ObjectStore} (h : s.delete key = (.ok (), t)) :
    t.object? key = none := by
  rw [delete] at h
  rcases call_cases s .delete key _ with ⟨e, hcall⟩ | hcall
  · rw [hcall] at h
    cases h
  · rw [hcall] at h
    cases h
    rw [object?, find?_filter_self, Option.map_none]

/-- Where there is no upload, giving one up brings none. -/
theorem upload?_abortUpload_of_none {id other : String} (h : s.upload? other = none) :
    (s.abortUpload key id).2.upload? other = none := by
  have hsee : (s.see key).upload? other = none := by
    rw [upload?, see_uploads]
    exact h
  rw [abortUpload]
  rcases call_cases s .abortUpload key _ with ⟨e, hcall⟩ | hcall
  · rw [hcall, hsee]
  · rw [hcall]
    show ((s.see key).uploads.filter (·.id != id)).find? (·.id == other) = none
    refine List.find?_eq_none.mpr fun u hu => List.find?_eq_none.mp hsee u ?_
    exact List.mem_of_mem_filter hu

/-- An upload that was given up is gone. -/
theorem upload?_abortUpload {id : String} {t : ObjectStore}
    (h : s.abortUpload key id = (.ok (), t)) : t.upload? id = none := by
  rw [abortUpload] at h
  rcases call_cases s .abortUpload key _ with ⟨e, hcall⟩ | hcall
  · rw [hcall] at h
    cases h
  · rw [hcall] at h
    cases h
    exact find?_filter_self (s.see key).uploads

/-- Joining the parts of an upload stores an object at the key. -/
theorem object?_completeUpload {id : String} {parts : List Upload.Part} {t : ObjectStore}
    (h : s.completeUpload key id parts = (.ok (), t)) : (t.object? key).isSome := by
  rw [completeUpload] at h
  rcases call_cases s .completeUpload key _ with ⟨e, hcall⟩ | hcall
  · rw [hcall] at h
    cases h
  · rw [hcall] at h
    cases h
    show ((((s.see key).forget id).store key _).object? key).isSome
    rw [object?_store_self]
    rfl

/-- Whatever becomes of joining parts, an object at the key is not lost. -/
theorem isSome_completeUpload {id : String} {parts : List Upload.Part}
    (h : (s.object? key).isSome) : ((s.completeUpload key id parts).2.object? key).isSome := by
  rw [completeUpload]
  rcases call_cases s .completeUpload key _ with ⟨e, hcall⟩ | hcall
  · rw [hcall, object?_of_objects (see_objects s key)]
    exact h
  · rw [hcall]
    show ((((s.see key).forget id).store key _).object? key).isSome
    rw [object?_store_self]
    rfl

theorem object?_completeUpload_of_ne {id : String} {parts : List Upload.Part} (h : other ≠ key) :
    (s.completeUpload key id parts).2.object? other = s.object? other := by
  rw [completeUpload]
  rcases call_cases s .completeUpload key _ with ⟨e, hcall⟩ | hcall
  · rw [hcall, object?_of_objects (see_objects s key)]
  · rw [hcall]
    show (((s.see key).forget id).store key _).object? other = s.object? other
    rw [object?_store_of_ne h]
    exact object?_of_objects (see_objects s key) other

end SharedMemos.Storage.ObjectStore
