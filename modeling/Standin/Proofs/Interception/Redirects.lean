import Standin.Session.Basic

namespace Standin

open Mock

namespace FileTree

def bytesOf (text : String) : List UInt8 := text.toUTF8.data.toList

variable {tree : FileTree} {path text : String} {content : List UInt8}

theorem decodeUtf8_eq_ok_iff : decodeUtf8 content = .ok text ↔ content = bytesOf text := by
  have hBytes : (ByteArray.mk content.toArray) = text.toUTF8 ↔ content = bytesOf text := by
    rw [bytesOf, ByteArray.ext_iff, ← Array.toList_inj]
  rw [← hBytes, decodeUtf8, String.fromUTF8?]
  by_cases hValid : (ByteArray.mk content.toArray).IsValidUTF8
  · simp only [hValid, ↓reduceDIte, Except.ok.injEq]
    exact String.toByteArray_inj.symm
  · simp only [hValid, ↓reduceDIte, reduceCtorEq, false_iff]
    rintro hSame
    exact hValid (hSame ▸ text.isValidUTF8)

/-- A text is read from a path exactly where a file has its bytes. -/
theorem readText_eq_ok_iff : tree.readText path = .ok text ↔
    tree.readBytes path = .ok (bytesOf text) := by
  unfold readText
  cases hRead : tree.readBytes path with
  | error failure => simp [Except.bind]
  | ok content => simp [Except.bind, decodeUtf8_eq_ok_iff]

theorem exists_failure_of_unread (h : ∀ text, tree.readBytes path ≠ .ok (bytesOf text)) :
    ∃ failure, tree.readText path = .error failure := by
  cases hRead : tree.readText path with
  | error failure => exact ⟨failure, rfl⟩
  | ok text => exact absurd (readText_eq_ok_iff.mp hRead) (h text)

end FileTree

namespace Interceptor

open FileTree

/-- The code that a module runs with: what the host loads goes through the transformation. -/
def served (i : Interceptor) (tree : FileTree) (m : Manifest) (original id : String) : String :=
  let source := match i.load tree m id with
    | .redirected _ code => code
    | .passed => original
  match i.transform tree m source id with
  | .automocked code _ => code
  | .redirected _ code => code
  | .passed => source

variable {i : Interceptor} {tree : FileTree} {m : Manifest} {id source path code : String}
  {call : Call}

/-- The registration found by its path is the one found under every rule. -/
theorem find?_of_exactPath {naming : Module.Naming} (rule : MatchRule)
    (h : MatchRule.exactPath.find? naming tree m id = some call) :
    rule.find? naming tree m id = some call := by
  cases rule with
  | exactPath => exact h
  | cleanIdentity =>
    have hPath : m.atPath? (Module.normalize naming tree id) = some call := h
    rw [MatchRule.find?, hPath, Option.some_or]

theorem load_of_redirect (h : MatchRule.exactPath.find? i.naming tree m id = some call)
    (hRedirect : call.redirect = some path) :
    i.load tree m id = match tree.readText path with
      | .ok code => .redirected path code
      | .error _ => .passed := by
  cases hText : tree.readText path <;> simp only [load, h, hRedirect, hText]

theorem transform_of_redirect (source : String)
    (h : i.rule.find? i.naming tree m id = some call) (hRedirect : call.redirect = some path) :
    i.transform tree m source id = match tree.readText path with
      | .ok code => .redirected path code
      | .error _ => .passed := by
  cases hText : tree.readText path <;> simp only [transform, h, hRedirect, hText]

theorem load_eq_redirected_iff : i.load tree m id = .redirected path code ↔
    ∃ call, MatchRule.exactPath.find? i.naming tree m id = some call ∧
      call.redirect = some path ∧ tree.readText path = .ok code := by
  constructor
  · intro h
    unfold load at h
    split at h
    · cases h
    · next call hFound =>
      split at h
      · cases h
      · next redirect hRedirect =>
        split at h
        · next text hText =>
          cases h
          exact ⟨call, hFound, hRedirect, hText⟩
        · cases h
  · rintro ⟨call, hFound, hRedirect, hText⟩
    rw [load_of_redirect hFound hRedirect, hText]

theorem transform_eq_redirected_iff : i.transform tree m source id = .redirected path code ↔
    ∃ call, i.rule.find? i.naming tree m id = some call ∧
      call.redirect = some path ∧ tree.readText path = .ok code := by
  constructor
  · intro h
    unfold transform at h
    split at h
    · cases h
    · next call hFound =>
      split at h
      · next redirect hRedirect =>
        split at h
        · next text hText =>
          cases h
          exact ⟨call, hFound, hRedirect, hText⟩
        · cases h
      · -- without a manual mock the answer is an automock or nothing
        split at h
        · split at h <;> cases h
        · cases h
  · rintro ⟨call, hFound, hRedirect, hText⟩
    rw [transform_of_redirect source hFound hRedirect, hText]

/-- What the transformation passes over for want of a text is not loaded either: by its path the
module has the same registration or none. -/
theorem load_of_unread (h : i.rule.find? i.naming tree m id = some call)
    (hRedirect : call.redirect = some path)
    (hUnread : ∀ text, tree.readBytes path ≠ .ok (bytesOf text)) :
    i.load tree m id = .passed := by
  obtain ⟨failure, hText⟩ := exists_failure_of_unread hUnread
  cases hFound : MatchRule.exactPath.find? i.naming tree m id with
  | none => simp only [load, hFound]
  | some other =>
    have hSame := find?_of_exactPath i.rule hFound
    rw [h] at hSame
    cases hSame
    rw [load_of_redirect hFound hRedirect, hText]

theorem served_of_redirected (original : String)
    (h : ∀ source, i.transform tree m source id = .redirected path code) :
    i.served tree m original id = code := by
  simp only [served, h]

/-- A manual mock that is loaded in place of a module is what every source of the module is
transformed into; where modules are found by their path alone, nothing else is. A module whose
registration has a manual mock is never automocked: it comes out as the file's text, byte for byte,
or, where the file holds none, passes both hooks. -/
theorem redirect_agrees (i : Interceptor) (tree : FileTree) (m : Manifest) (id : String) :
    (∀ path code, i.load tree m id = .redirected path code →
      tree.readBytes path = .ok (bytesOf code) ∧
      ∀ source, i.transform tree m source id = .redirected path code) ∧
    (i.rule = .exactPath → ∀ source path code,
      i.transform tree m source id = .redirected path code →
      i.load tree m id = .redirected path code) ∧
    ∀ call path, i.rule.find? i.naming tree m id = some call → call.redirect = some path →
      (∀ source code map, i.transform tree m source id ≠ .automocked code map) ∧
      (∀ text, tree.readBytes path = .ok (bytesOf text) →
        (∀ source, i.transform tree m source id = .redirected path text) ∧
        ∀ original, i.served tree m original id = text) ∧
      ((∀ text, tree.readBytes path ≠ .ok (bytesOf text)) →
        i.load tree m id = .passed ∧ (∀ source, i.transform tree m source id = .passed) ∧
        ∀ original, i.served tree m original id = original) := by
  refine ⟨fun path code hLoad => ?_, fun hRule source path code hTransform => ?_,
    fun call path hFound hRedirect => ⟨fun source code map hMocked => ?_, fun text hRead => ?_,
      fun hUnread => ?_⟩⟩
  · obtain ⟨call, hFound, hRedirect, hText⟩ := load_eq_redirected_iff.mp hLoad
    have hFound := find?_of_exactPath i.rule hFound
    exact ⟨readText_eq_ok_iff.mp hText, fun source =>
      transform_eq_redirected_iff.mpr ⟨call, hFound, hRedirect, hText⟩⟩
  · have hSome := transform_eq_redirected_iff.mp hTransform
    rw [hRule] at hSome
    exact load_eq_redirected_iff.mpr hSome
  · rw [transform_of_redirect source hFound hRedirect] at hMocked
    split at hMocked <;> cases hMocked
  · have hText := readText_eq_ok_iff.mpr hRead
    have hTransform (source : String) : i.transform tree m source id = .redirected path text :=
      transform_eq_redirected_iff.mpr ⟨call, hFound, hRedirect, hText⟩
    exact ⟨hTransform, fun original => served_of_redirected original hTransform⟩
  · obtain ⟨failure, hText⟩ := exists_failure_of_unread hUnread
    have hLoad := load_of_unread hFound hRedirect hUnread
    have hTransform (source : String) : i.transform tree m source id = .passed := by
      rw [transform_of_redirect source hFound hRedirect, hText]
    exact ⟨hLoad, hTransform, fun original => by simp only [served, hLoad, hTransform]⟩

/-- A package with a manual mock that ends its line in two characters, and one whose manual mock is
no text. -/
def packages : FileTree :=
  .dir [("api.js", .file (bytesOf "export let a;\r\n")), ("raw.js", .file [0xff, 0xfe])]

def packageCalls : Manifest :=
  (Manifest.ofCalls [⟨"api", "/api/index.js", some "/api.js", true, "api"⟩,
    ⟨"raw", "/raw/index.js", some "/raw.js", true, "raw"⟩]).1

/-- The bundled copy of the first package is only transformed, the package itself is also loaded,
and the second package stays what it is. -/
theorem packages_redirected :
    let i : Interceptor := ⟨.cleanIdentity, .asWritten⟩
    i.load packages packageCalls "/deps/api.js?v=1" = .passed ∧
    i.served packages packageCalls "export {}" "/deps/api.js?v=1" = "export let a;\r\n" ∧
    (∀ source, i.transform packages packageCalls source "/api/index.js" =
      .redirected "/api.js" "export let a;\r\n") ∧
    i.served packages packageCalls "export {}" "/raw/index.js" = "export {}" := by
  intro i
  have hBundled : MatchRule.cleanIdentity.find? .asWritten packages packageCalls
      "/deps/api.js?v=1" = some ⟨"api", "/api/index.js", some "/api.js", true, "api"⟩ := by
    decide +kernel
  have hRaw : MatchRule.cleanIdentity.find? .asWritten packages packageCalls "/raw/index.js" =
      some ⟨"raw", "/raw/index.js", some "/raw.js", true, "raw"⟩ := by decide +kernel
  have hRead : packages.readBytes "/api.js" = .ok (bytesOf "export let a;\r\n") := rfl
  have hUnread : ∀ text, packages.readBytes "/raw.js" ≠ .ok (bytesOf text) := by
    intro text hText
    have hNone : packages.readText "/raw.js" = .error .notUtf8 := by rfl
    rw [readText_eq_ok_iff.mpr hText] at hNone
    cases hNone
  have hLoad : i.load packages packageCalls "/api/index.js" =
      .redirected "/api.js" "export let a;\r\n" := by decide +kernel
  obtain ⟨-, -, hCopy⟩ := redirect_agrees i packages packageCalls "/deps/api.js?v=1"
  obtain ⟨hOwn, -, -⟩ := redirect_agrees i packages packageCalls "/api/index.js"
  obtain ⟨-, -, hOther⟩ := redirect_agrees i packages packageCalls "/raw/index.js"
  exact ⟨by decide +kernel, ((hCopy _ _ hBundled rfl).2.1 _ hRead).2 _, (hOwn _ _ hLoad).2,
    ((hOther _ _ hRaw rfl).2.2 hUnread).2.2 _⟩

end Interceptor

end Standin
