import DirectoryService.Metrics
import DirectoryService.Proofs.Text.Split
import Mathlib.Algebra.BigOperators.Group.List.Basic
import Mathlib.Algebra.Ring.Nat

/-!
# Counters and their names

Everything that is counted has a counter of its own: the name of a counter tells its sample, so what
a counter shows is how often its sample was counted. The searches that ended with a result are
counted on several counters, one for each way of answering them.
-/

namespace DirectoryService

/-- A text tells what stands in front of its first sign and what stands behind the word that the sign
starts. -/
theorem append_inj_of_sign {sign : Char} {word : String} {tail : List Char}
    {first second front back : String} (hw : word.toList = sign :: tail)
    (hf : sign ∉ first.toList) (hs : sign ∉ second.toList)
    (h : first ++ word ++ front = second ++ word ++ back) : first = second ∧ front = back := by
  have h := congrArg String.toList h
  rw [String.toList_append, String.toList_append, String.toList_append, String.toList_append, hw,
    List.append_assoc, List.append_assoc, List.cons_append, List.cons_append] at h
  have ⟨hfirst, hback⟩ := append_cons_inj hf hs h
  exact ⟨String.toList_inj.1 hfirst, String.toList_inj.1 (List.append_cancel_left hback)⟩

/-- So does a text in which equal words stand around them. -/
theorem append_inj_between {sign : Char} {word : String} {tail : List Char}
    {before after first second front back : String} (hw : word.toList = sign :: tail)
    (hf : sign ∉ first.toList) (hs : sign ∉ second.toList)
    (h : before ++ first ++ word ++ front ++ after = before ++ second ++ word ++ back ++ after) :
    first = second ∧ front = back := by
  rw [String.append_left_inj] at h
  simp only [String.append_assoc, String.append_right_inj] at h
  rw [← String.append_assoc, ← String.append_assoc] at h
  exact append_inj_of_sign hw hf hs h

/-- The names of result codes differ. -/
theorem ResultCode.name_injective : Function.Injective ResultCode.name := by
  intro first second
  cases first <;> cases second <;> decide

/-- The labels of kinds of errors differ. -/
theorem ErrorKind.label_injective : Function.Injective ErrorKind.label := by
  intro first second
  cases first <;> cases second <;> decide

/-- The labels of paths differ. -/
theorem SearchPath.label_injective : Function.Injective SearchPath.label := by
  intro first second
  cases first <;> cases second <;> decide

/-- No label of a path is cut short by the sign behind it. -/
theorem SearchPath.not_mem_label (path : SearchPath) : '\x22' ∉ path.label.toList := by
  cases path <;> decide

/-- The labels of questions differ. -/
theorem StoreCall.label_injective : Function.Injective StoreCall.label := by
  intro first second
  cases first <;> cases second <;> decide

/-- No label of a question is cut short by the sign behind it. -/
theorem StoreCall.not_mem_label (call : StoreCall) : '\x22' ∉ call.label.toList := by
  cases call <;> decide

namespace Sample

/-- The word in front of the labels of a counter. -/
def family : Sample → String
  | .bind _ => "ldap_bind_operations_total"
  | .search _ _ => "ldap_search_operations_total"
  | .connectionError _ => "ldap_connection_errors_total"
  | .storeCall _ _ => "directory_store_operation_duration_seconds_count"

/-- The labels of a counter. -/
def labels : Sample → String
  | .bind result => "result=\"" ++ result.name ++ "\"\x7d"
  | .search path result => "kind=\"" ++ path.label ++ "\",result=\"" ++ result.name ++ "\"\x7d"
  | .connectionError kind => "kind=\"" ++ kind.label ++ "\"\x7d"
  | .storeCall call succeeded =>
    "operation=\"" ++ call.label ++ "\",result=\"" ++ (if succeeded then "success" else "failure") ++
      "\"\x7d"

/-- More labels behind a family are labels behind it. -/
theorem labelled_append {text family labels : String} (h : text = family ++ "\x7b" ++ labels)
    (more : String) : text ++ more = family ++ "\x7b" ++ (labels ++ more) := by
  rw [h, String.append_assoc]

/-- The name of a counter is its family with its labels. -/
theorem name_eq (sample : Sample) : sample.name = sample.family ++ "\x7b" ++ sample.labels := by
  cases sample with
  | bind result =>
    have hw : "ldap_bind_operations_total\x7bresult=\"" =
        "ldap_bind_operations_total" ++ "\x7b" ++ "result=\"" := by decide
    exact labelled_append (labelled_append hw _) _
  | search path result =>
    have hw : "ldap_search_operations_total\x7bkind=\"" =
        "ldap_search_operations_total" ++ "\x7b" ++ "kind=\"" := by decide
    exact labelled_append (labelled_append (labelled_append (labelled_append hw _) _) _) _
  | connectionError kind =>
    have hw : "ldap_connection_errors_total\x7bkind=\"" =
        "ldap_connection_errors_total" ++ "\x7b" ++ "kind=\"" := by decide
    exact labelled_append (labelled_append hw _) _
  | storeCall call succeeded =>
    have hw : "directory_store_operation_duration_seconds_count\x7boperation=\"" =
        "directory_store_operation_duration_seconds_count" ++ "\x7b" ++ "operation=\"" := by decide
    exact labelled_append (labelled_append (labelled_append (labelled_append hw _) _) _) _

/-- No family holds the sign in front of the labels. -/
theorem not_mem_family (sample : Sample) : '\x7b' ∉ sample.family.toList := by
  cases sample with
  | bind result => rw [family]; decide
  | search path result => rw [family]; decide
  | connectionError kind => rw [family]; decide
  | storeCall call succeeded => rw [family]; decide

/-- Different samples are counted on different counters. -/
theorem name_injective : Function.Injective Sample.name := by
  intro first second h
  rw [name_eq, name_eq] at h
  have ⟨hfamily, hlabels⟩ := append_inj_of_sign rfl first.not_mem_family second.not_mem_family h
  cases first <;> cases second
  case bind.bind result code =>
    have h := (String.append_right_inj _).1 ((String.append_left_inj _).1 hlabels)
    rw [ResultCode.name_injective h]
  case search.search path result way code =>
    have ⟨hpath, hresult⟩ := append_inj_between rfl path.not_mem_label way.not_mem_label hlabels
    rw [SearchPath.label_injective hpath, ResultCode.name_injective hresult]
  case connectionError.connectionError kind sort =>
    have h := (String.append_right_inj _).1 ((String.append_left_inj _).1 hlabels)
    rw [ErrorKind.label_injective h]
  case storeCall.storeCall call succeeded question answered =>
    have ⟨hcall, hresult⟩ := append_inj_between rfl call.not_mem_label question.not_mem_label hlabels
    have h : succeeded = answered := by
      revert hresult
      cases succeeded <;> cases answered <;> decide
    rw [StoreCall.label_injective hcall, h]
  all_goals simp [family] at hfamily

/-- Whether a sample is about a store. -/
def isStoreCall : Sample → Bool
  | .bind _ => false
  | .search _ _ => false
  | .connectionError _ => false
  | .storeCall _ _ => true

/-- Whether a sample is about a search that ended with a result. -/
def endsSearch (code : ResultCode) : Sample → Bool
  | .bind _ => false
  | .search _ result => result = code
  | .connectionError _ => false
  | .storeCall _ _ => false

/-- A search is no call of a store. -/
theorem isStoreCall_of_endsSearch {code : ResultCode} (sample : Sample)
    (ends : sample.endsSearch code = true) : sample.isStoreCall = false := by
  cases sample with
  | bind result => rfl
  | search path result => rfl
  | connectionError kind => rfl
  | storeCall call succeeded => cases ends

end Sample

/-- The ways in which a search is answered, all of them. -/
def SearchPath.all : List SearchPath :=
  [.subschema, .namingContexts, .schema, .base, .oneLevel, .subtree]

/-- A sample is on the counters of searches with a result once if it is about one. -/
theorem sum_counters (code : ResultCode) (sample : Sample) :
    (SearchPath.all.map fun path => if sample == .search path code then 1 else 0).sum =
      if sample.endsSearch code then 1 else 0 := by
  cases sample with
  | bind result => rfl
  | connectionError kind => rfl
  | storeCall call succeeded => rfl
  | search path result => cases code <;> cases result <;> cases path <;> rfl

/-- The searches with a result are spread over the counters of the ways. -/
theorem sum_count_search (code : ResultCode) (samples : List Sample) :
    (SearchPath.all.map fun path => samples.count (.search path code)).sum =
      samples.countP (Sample.endsSearch code) := by
  induction samples with
  | nil => rfl
  | cons sample samples ih =>
    simp only [List.count_cons, List.countP_cons, List.sum_map_add, ih, sum_counters]

end DirectoryService
