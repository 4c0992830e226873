import SelectorClauses.Proofs.Catalogue.Find

/-!
One look-up. Main statement: `gets_get` lists the ways in which a look-up ends. From it follows
what a look-up leaves of a catalogue, what it answers in a sound one, and that looking the same key
up again changes nothing.
-/
namespace SelectorClauses

theorem trim_keyOf (source : Value) : (keyOf source).trim = keyOf source := Text.trim_trim _

theorem keyOf_eq_of_shown {source : Value} {key : Text} (trimmed : key.trim = key)
    (shown : source.display = key) : keyOf source = key := by rw [keyOf, shown, trimmed]

theorem keyOf_eq_of_padded {source source' : Value} {pre post : Text} (blank : Text.AllBlank pre)
    (blank' : Text.AllBlank post) (padded : source'.display = pre ++ source.display ++ post) :
    keyOf source' = keyOf source := by rw [keyOf, keyOf, padded, Text.trim_pad blank blank']

namespace Catalogue

/-- The ways in which a look-up of a key ends: the key is there, or it is parsed and its selector is
put at the end, or it is rejected. -/
inductive Gets (c : Catalogue) (r : Registry) (key : Text) : Answer → Prop
  | found (h : Handle) : c.find? r key = some h → Gets c r key ⟨.ok h, c, []⟩
  | built (ts : List Token) : c.find? r key = none → tokenize key = .ok ts →
      Gets c r key ⟨.ok ⟨c.length, ⟨key, ts⟩⟩, c ++ [(r, ⟨key, ts⟩)], [.parsing key]⟩
  | rejected (f : Fault) : c.find? r key = none → tokenize key = .error f →
      Gets c r key ⟨.error (.construction key (.fault f)), c,
        .parsing key :: Entry.ofFault key f ++ [.rejected key (.fault f)]⟩

theorem gets_lockedGet (c : Catalogue) (r : Registry) (key : Text) :
    Gets c r key (c.lockedGet r key) := by
  rw [lockedGet]
  cases found : c.find? r key with
  | some h => exact .found h found
  | none =>
    cases read : tokenize key with
    | ok ts => exact .built ts found read
    | error f => exact .rejected f found read

theorem lockedGet_of_find? {c : Catalogue} {r : Registry} {key : Text} {h : Handle}
    (found : c.find? r key = some h) : c.lockedGet r key = ⟨.ok h, c, []⟩ := by
  simp only [lockedGet, found]

/-- With nobody in between, the first look is as good as the second. -/
theorem get_eq_lockedGet (c : Catalogue) (r : Registry) (source : Value) :
    c.get r source = c.lockedGet r (keyOf source) := by
  rw [get]
  cases found : c.find? r (keyOf source) with
  | none => rfl
  | some h => exact (lockedGet_of_find? found).symm

theorem gets_get (c : Catalogue) (r : Registry) (source : Value) :
    Gets c r (keyOf source) (c.get r source) := by
  rw [get_eq_lockedGet]
  exact gets_lockedGet c r (keyOf source)

theorem get_congr {source source' : Value} (same : keyOf source = keyOf source') (c : Catalogue)
    (r : Registry) : c.get r source = c.get r source' := by
  rw [get_eq_lockedGet, get_eq_lockedGet, same]

theorem get_of_find? {c : Catalogue} {r : Registry} {source : Value} {h : Handle}
    (found : c.find? r (keyOf source) = some h) : c.get r source = ⟨.ok h, c, []⟩ := by
  rw [get_eq_lockedGet, lockedGet_of_find? found]

section Gets

variable {c : Catalogue} {r : Registry} {key : Text} {a : Answer}

theorem Gets.longer (gets : Gets c r key a) : c <+: a.after := by
  cases gets with
  | found h there => exact List.prefix_refl c
  | built ts absent read => exact List.prefix_append c _
  | rejected f absent fault => exact List.prefix_refl c

theorem Gets.sound (gets : Gets c r key a) (sound : c.Sound) (trimmed : key.trim = key) :
    a.after.Sound := by
  cases gets with
  | found h there => exact sound
  | rejected f absent fault => exact sound
  | built ts absent read =>
    constructor
    · intro r' s mem
      rcases List.mem_append.mp mem with mem | mem
      · exact sound.parsed r' s mem
      · obtain ⟨rfl, rfl⟩ := Prod.mk.inj (List.mem_singleton.mp mem)
        exact read
    · intro r' s mem
      rcases List.mem_append.mp mem with mem | mem
      · exact sound.trimmed r' s mem
      · obtain ⟨rfl, rfl⟩ := Prod.mk.inj (List.mem_singleton.mp mem)
        exact trimmed
    · rw [List.map_append, List.nodup_append]
      refine ⟨sound.distinct, by simp, ?_⟩
      intro e mem e' mem' same
      obtain ⟨⟨r', s⟩, stored, rfl⟩ := List.mem_map.mp mem
      obtain ⟨rfl, sameKey⟩ : r' = r ∧ s.source = key := by simpa [← same] using mem'
      exact find?_eq_none_iff.mp absent s stored sameKey

theorem Gets.find?_after (gets : Gets c r key a) {h : Handle} (ok : a.result = .ok h) :
    a.after.find? r key = some h := by
  cases gets with
  | found h' there => exact there.trans (congrArg some (Except.ok.inj ok))
  | rejected f absent fault => cases ok
  | built ts absent read =>
    obtain rfl : (⟨c.length, ⟨key, ts⟩⟩ : Handle) = h := Except.ok.inj ok
    rw [Catalogue.find?, Option.map_eq_none_iff] at absent
    simp [Catalogue.find?, List.zipIdx_append, List.find?_append, absent]

theorem Gets.after_of_error (gets : Gets c r key a) {e : SelectorError}
    (error : a.result = .error e) : a.after = c := by
  cases gets with
  | found h there => cases error
  | built ts absent read => cases error
  | rejected f absent fault => rfl

theorem Gets.result_eq (gets : Gets c r key a) (sound : c.Sound) :
    a.result.map Handle.selector = Selector.parse key := by
  cases gets with
  | found h there => exact (sound.parse_eq there).symm
  | built ts absent read => exact (Selector.parse_of_tokenize_ok read).symm
  | rejected f absent fault => exact (Selector.parse_of_tokenize_error fault).symm

theorem Gets.exists_ok (gets : Gets c r key a) (sound : c.Sound) {ts : List Token}
    (read : tokenize key = .ok ts) : ∃ h, a.result = .ok h ∧ h.selector = ⟨key, ts⟩ := by
  have fresh := gets.result_eq sound
  rw [Selector.parse_of_tokenize_ok read] at fresh
  cases result : a.result with
  | error e =>
    rw [result] at fresh
    cases fresh
  | ok h =>
    rw [result] at fresh
    exact ⟨h, rfl, Except.ok.inj fresh⟩

theorem Gets.result_of_fault (gets : Gets c r key a) (sound : c.Sound) {f : Fault}
    (fault : tokenize key = .error f) : a.result = .error (.construction key (.fault f)) := by
  have fresh := gets.result_eq sound
  rw [Selector.parse_of_tokenize_error fault] at fresh
  cases result : a.result with
  | error e =>
    rw [result] at fresh
    exact congrArg Except.error (Except.error.inj fresh)
  | ok h =>
    rw [result] at fresh
    cases fresh

end Gets

theorem Sound.get_of_error {c : Catalogue} (sound : c.Sound) {r : Registry} {source : Value}
    {e : SelectorError} (rejects : Selector.parse (keyOf source) = .error e) :
    ∃ f, tokenize (keyOf source) = .error f ∧
      c.get r source = ⟨.error e, c, .parsing (keyOf source) :: Entry.ofFault (keyOf source) f ++
        [.rejected (keyOf source) (.fault f)]⟩ := by
  obtain ⟨f, fault, rfl⟩ := Selector.parse_eq_error_iff.mp rejects
  refine ⟨f, fault, ?_⟩
  have gets := gets_get c r source
  generalize c.get r source = a at gets ⊢
  cases gets with
  | found h there =>
    rw [sound.parse_eq there] at rejects
    cases rejects
  | built ts absent read =>
    rw [fault] at read
    cases read
  | rejected g absent fault' =>
    obtain rfl : f = g := Except.error.inj (fault.symm.trans fault')
    rfl

theorem get_again {c : Catalogue} {r : Registry} {source source' : Value}
    (same : keyOf source' = keyOf source) :
    ((c.get r source).after.get r source').result = (c.get r source).result ∧
      ((c.get r source).after.get r source').after = (c.get r source).after := by
  cases answer : (c.get r source).result with
  | ok h =>
    have found := (gets_get c r source).find?_after answer
    rw [← same] at found
    rw [get_of_find? found]
    exact ⟨rfl, rfl⟩
  | error e =>
    have unchanged := (gets_get c r source).after_of_error answer
    rw [unchanged, get_congr same]
    exact ⟨answer, unchanged⟩

end Catalogue

end SelectorClauses
