import DirectoryService.Proofs.Schema.Superiors
import DirectoryService.Proofs.Text.Utf8
import DirectoryService.Service.Api

/-!
# Who may have the schema read again

A request is let in exactly if it gives the token that the service has. Of all requests only one that
is let in can replace the schema that is served, and only by a schema that was read and checked as a
whole; every other request leaves it as it is.
-/

namespace DirectoryService

/-- A character that an authorization can hold. -/
def HttpRequest.IsVisible (c : Char) : Prop := c.toNat = 9 ∨ 32 ≤ c.toNat ∧ c.toNat < 127

/-- What a request gives as its authorization is a text of visible characters. -/
structure HttpRequest.Gives (request : HttpRequest) (text : String) : Prop where
  /-- The first header of authorization holds the text and nothing else. -/
  header : request.header? "authorization" = some (Utf8.encode text)
  /-- All characters of the text are visible. -/
  visible : ∀ c ∈ text.toList, IsVisible c

namespace HttpRequest

variable {request : HttpRequest}

/-- The octets that an authorization can hold are the numbers of visible characters. -/
theorem visible_iff {octet : UInt8} :
    ((32 ≤ octet && octet < 127) || octet = 9) = true ↔
      octet.toNat = 9 ∨ 32 ≤ octet.toNat ∧ octet.toNat < 127 := by
  rw [Bool.or_eq_true, Bool.and_eq_true, decide_eq_true_eq, decide_eq_true_eq, decide_eq_true_eq,
    UInt8.le_iff_toNat_le, UInt8.lt_iff_toNat_lt, ← UInt8.toNat_inj]
  exact Or.comm

/-- The character of an octet has its number. -/
theorem toNat_ofNat (octet : UInt8) : (Char.ofNat octet.toNat).toNat = octet.toNat := by
  have hsmall := octet.toNat_lt
  exact Utf8.val_ofNat (by omega)

/-- An authorization is read exactly if the first header of it holds visible characters only, octet
by octet. -/
theorem authorization?_eq_some_iff {chars : List Char} :
    request.authorization? = some chars ↔ ∃ octets, request.header? "authorization" = some octets ∧
      (∀ octet ∈ octets, octet.toNat = 9 ∨ 32 ≤ octet.toNat ∧ octet.toNat < 127) ∧
      octets.map (fun octet => Char.ofNat octet.toNat) = chars := by
  simp only [authorization?, ← visible_iff, ← List.all_eq_true]
  cases request.header? "authorization" with
  | none => simp
  | some octets =>
    simp only [Option.bind_eq_bind, Option.bind_some, Option.ite_none_right_eq_some,
      Option.some.injEq, exists_eq_left']

/-- The authorization that is read is the text that the request gives. -/
theorem authorization?_eq_toList_iff {text : String} :
    request.authorization? = some text.toList ↔ request.Gives text := by
  rw [authorization?_eq_some_iff]
  constructor
  · intro ⟨octets, header, visible, hchars⟩
    have hascii : ∀ octet ∈ octets, octet.toNat < 128 := fun octet ho => by
      have hv := visible octet ho
      omega
    refine ⟨?_, fun c hc => ?_⟩
    · rw [Utf8.encode, ← hchars, Utf8.encodeChars_map_ofNat hascii, header]
    · rw [← hchars] at hc
      obtain ⟨octet, ho, rfl⟩ := List.mem_map.1 hc
      rw [IsVisible, toNat_ofNat]
      exact visible octet ho
  · intro gives
    have hascii : ∀ c ∈ text.toList, c.toNat < 128 := fun c hc => by
      have hv := gives.visible c hc
      rw [IsVisible] at hv
      omega
    have hchars := Utf8.map_ofNat_encodeChars hascii
    refine ⟨Utf8.encode text, gives.header, fun octet ho => ?_, hchars⟩
    have hc : Char.ofNat octet.toNat ∈ text.toList := by
      rw [← hchars]
      exact List.mem_map.2 ⟨octet, ho, rfl⟩
    have hv := gives.visible _ hc
    rwa [IsVisible, toNat_ofNat] at hv

end HttpRequest

/-- A schema is read from a store exactly if all its sections are and it passes the checks. -/
theorem Catalog.load_eq_ok_iff {store : Store} {catalog : Catalog} :
    Catalog.load store = .ok catalog ↔
      store.syntaxes = .ok catalog.syntaxes ∧ store.matchingRules = .ok catalog.matchingRules ∧
      store.attributeTypes = .ok catalog.attributeTypes ∧
      store.objectClasses = .ok catalog.objectClasses ∧ catalog.checked = .ok catalog := by
  have hchecked {read : Catalog} : read.checked.mapError Error.schema = .ok catalog ↔
      read = catalog ∧ catalog.checked = .ok catalog := by
    rw [Steps.mapError_eq_ok_iff]
    constructor
    · intro h
      obtain ⟨same, -⟩ := checked_eq_ok_iff.1 h
      rw [same] at h ⊢
      exact ⟨rfl, h⟩
    · intro h
      rw [h.1]
      exact h.2
  simp only [load, assemble, Steps.bind_eq_ok_iff, hchecked]
  constructor
  · intro h
    obtain ⟨_, syntaxes, _, matchingRules, _, attributeTypes, _, objectClasses, rfl, checked⟩ := h
    exact ⟨syntaxes, matchingRules, attributeTypes, objectClasses, checked⟩
  · intro h
    obtain ⟨syntaxes, matchingRules, attributeTypes, objectClasses, checked⟩ := h
    exact ⟨_, syntaxes, _, matchingRules, _, attributeTypes, _, objectClasses, rfl, checked⟩

namespace Api

variable {api : Api} {request : HttpRequest}

/-- There is a token to compare with exactly if one is there that is not empty. -/
theorem expected?_eq_some_iff {token : String} :
    api.expected? = some token ↔ api.token = some token ∧ token ≠ "" := by
  rw [expected?, Option.filter_eq_some_iff, Bool.not_eq_true', ← Bool.not_eq_true,
    String.isEmpty_iff]

/-- A request is let in exactly if there is a token that is not empty and the request gives it behind
the word for it. A token that is not of visible characters lets nobody in. -/
theorem authorize_eq_ok_iff :
    api.authorize request = .ok () ↔
      ∃ token, api.token = some token ∧ token ≠ "" ∧ request.Gives ("Bearer " ++ token) := by
  have hbearer (token : String) : ("Bearer " ++ token).toList = bearer ++ token.toList :=
    String.toList_append
  rw [authorize]
  constructor
  · intro h
    cases htext : request.authorization? with
    | none => simp [htext] at h
    | some text =>
      simp only [htext] at h
      split at h
      · rename_i hprefix
        obtain ⟨rest, rfl⟩ := List.isPrefixOf_iff_prefix.1 hprefix
        cases htoken : api.expected? with
        | none => simp [htoken] at h
        | some token =>
          simp only [htoken, List.drop_left] at h
          split at h
          · rename_i same
            obtain ⟨hthere, hne⟩ := expected?_eq_some_iff.1 htoken
            refine ⟨token, hthere, hne, HttpRequest.authorization?_eq_toList_iff.1 ?_⟩
            rw [htext, hbearer, same]
          · cases h
      · cases h
  · intro h
    obtain ⟨token, hthere, hne, gives⟩ := h
    have htoken : api.expected? = some token := expected?_eq_some_iff.2 ⟨hthere, hne⟩
    have htext := HttpRequest.authorization?_eq_toList_iff.2 gives
    have hprefix : bearer.isPrefixOf (bearer ++ token.toList) = true :=
      List.isPrefixOf_iff_prefix.2 (List.prefix_append _ _)
    rw [hbearer] at htext
    simp only [htext, htoken, hprefix, if_true, List.drop_left]

/-- A request has the schema that a store holds read again, and a schema comes out. -/
structure Reloads (token : Option String) (store : Store) (request : HttpRequest)
    (catalog : Catalog) : Prop where
  /-- The method is the one that changes things. -/
  method : request.method = "POST"
  /-- The path is the one of the schema. -/
  path : request.path = reloadPath
  /-- The request gives the token, which is there and is not empty. -/
  admitted : ∃ secret, token = some secret ∧ secret ≠ "" ∧ request.Gives ("Bearer " ++ secret)
  /-- The syntaxes are the ones that the store holds. -/
  syntaxes : store.syntaxes = .ok catalog.syntaxes
  /-- The matching rules are the ones that the store holds. -/
  matchingRules : store.matchingRules = .ok catalog.matchingRules
  /-- The attribute types are the ones that the store holds. -/
  attributeTypes : store.attributeTypes = .ok catalog.attributeTypes
  /-- The object classes are the ones that the store holds. -/
  objectClasses : store.objectClasses = .ok catalog.objectClasses
  /-- Together they pass the checks of a schema. -/
  checked : catalog.checked = .ok catalog

/-- What is served from now on is what the request comes to before its answer is cut down. -/
theorem served_respond (api : Api) (request : HttpRequest) :
    (api.respond request).2 = (api.respondFully request).2 := rfl

/-- A request has the schema read again exactly if it is let in with the right method and path and
the schema can be read. -/
theorem reloads_iff {catalog : Catalog} :
    Reloads api.token api.store request catalog ↔ request.method = "POST" ∧
      request.path = reloadPath ∧ api.authorize request = .ok () ∧
      Catalog.load api.store = .ok catalog := by
  rw [authorize_eq_ok_iff, Catalog.load_eq_ok_iff]
  constructor
  · intro reloads
    exact ⟨reloads.method, reloads.path, reloads.admitted, reloads.syntaxes, reloads.matchingRules,
      reloads.attributeTypes, reloads.objectClasses, reloads.checked⟩
  · intro ⟨method, path, admitted, syntaxes, matchingRules, attributeTypes, objectClasses, checked⟩
    exact ⟨method, path, admitted, syntaxes, matchingRules, attributeTypes, objectClasses, checked⟩

/-- A request that has the schema read again replaces the one that is served. -/
theorem served_of_reloads {catalog : Catalog}
    (reloads : Reloads api.token api.store request catalog) :
    (api.respond request).2 = catalog := by
  obtain ⟨method, path, admitted, loaded⟩ := reloads_iff.1 reloads
  have hhealth : reloadPath ≠ "/health" := by decide
  have hmetrics : reloadPath ≠ "/metrics" := by decide
  simp only [served_respond, respondFully, path, if_neg hhealth, if_neg hmetrics, admitted,
    respondInside, if_true, method, reload, loaded]

/-- Every other request leaves the schema that is served. -/
theorem served_of_not_reloads
    (unread : ∀ catalog, ¬ Reloads api.token api.store request catalog) :
    (api.respond request).2 = api.catalog := by
  simp only [served_respond, respondFully]
  split
  · rfl
  · split
    · rfl
    · split
      · rfl
      · rename_i admitted
        rw [respondInside]
        split
        · rename_i path
          split
          · rename_i method
            rw [reload]
            split
            · rfl
            · rename_i catalog loaded
              exact absurd (reloads_iff.2 ⟨method, path, admitted, loaded⟩) (unread catalog)
          · rfl
        · rfl

end Api

end DirectoryService
