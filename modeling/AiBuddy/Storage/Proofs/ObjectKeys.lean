import AiBuddy.Misc.Words
import AiBuddy.Storage.ObjectKeys
import Mathlib.Data.List.DropRight

/-!
# Keys and their owners

A built key is its prefix and then its segments, each behind a slash. No segment holds a slash, so
the segments can be read off the key, and a scope is a prefix of the key exactly if its segments
come first.
-/

namespace AiBuddy.Storage

def path (start : List Char) (segments : List (List Char)) : List Char :=
  start ++ segments.flatMap fun segment => '/' :: segment

theorem path_cons {start segment : List Char} {segments : List (List Char)} :
    path start (segment :: segments) = start ++ '/' :: path segment segments := rfl

theorem path_append {start : List Char} {segments more : List (List Char)} :
    path start (segments ++ more) = path (path start segments) more := by
  rw [path, path, path, List.flatMap_append, List.append_assoc]

theorem splitOn_path {segments : List (List Char)} (h : ∀ segment ∈ segments, '/' ∉ segment)
    {start : List Char} :
    (path start segments).splitOn '/' = start.splitOn '/' ++ segments := by
  induction segments generalizing start with
  | nil => rw [path, List.flatMap_nil, List.append_nil, List.append_nil]
  | cons segment segments ih =>
    rw [List.forall_mem_cons] at h
    rw [path_cons, List.splitOn_append_cons_self, ih h.2, List.splitOn_eq_singleton h.1]
    rfl

theorem append_slash_prefix_iff {front back : List Char} (hfront : '/' ∉ front)
    (hback : '/' ∉ back) {xs ys : List Char} :
    front ++ '/' :: xs <+: back ++ '/' :: ys ↔ front = back ∧ xs <+: ys := by
  induction front generalizing back with
  | nil =>
    cases back with
    | nil => simp [List.cons_prefix_cons]
    | cons c back =>
      have hne : '/' ≠ c := fun heq => hback (heq ▸ List.mem_cons_self)
      simp [List.cons_prefix_cons, hne]
  | cons c front ih =>
    rw [List.mem_cons, not_or] at hfront
    cases back with
    | nil => simp [List.cons_prefix_cons, Ne.symm hfront.1]
    | cons d back =>
      rw [List.mem_cons, not_or] at hback
      rw [List.cons_append, List.cons_append, List.cons_prefix_cons, ih hfront.2 hback.2,
        List.cons.injEq, and_assoc]

theorem scope_prefix_iff {parts owner : List (List Char)} (hlength : parts.length = owner.length)
    (hparts : ∀ part ∈ parts, '/' ∉ part) (howner : ∀ part ∈ owner, '/' ∉ part)
    {rest : List (List Char)} (hrest : rest ≠ []) {start : List Char} :
    path start parts ++ ['/'] <+: path start (owner ++ rest) ↔ parts = owner := by
  rw [path, path, List.append_assoc, List.prefix_append_right_inj]
  induction parts generalizing owner with
  | nil =>
    obtain rfl := List.eq_nil_of_length_eq_zero hlength.symm
    obtain ⟨first, rest, rfl⟩ := List.exists_cons_of_ne_nil hrest
    simp
  | cons part parts ih =>
    cases owner with
    | nil => cases hlength
    | cons first owner =>
      rw [List.forall_mem_cons] at hparts howner
      obtain ⟨xs, hxs⟩ : ∃ xs, parts.flatMap (fun segment => '/' :: segment) ++ ['/'] =
          '/' :: xs := by
        cases parts with
        | nil => exact ⟨[], rfl⟩
        | cons part parts => exact ⟨_, rfl⟩
      obtain ⟨ys, hys⟩ : ∃ ys, (owner ++ rest).flatMap (fun segment => '/' :: segment) =
          '/' :: ys := by
        cases hall : owner ++ rest with
        | nil => exact absurd (List.append_eq_nil_iff.mp hall).2 hrest
        | cons part parts => exact ⟨_, rfl⟩
      have htail := ih (Nat.succ.inj hlength) hparts.2 howner.2
      rw [hxs, hys, List.cons_prefix_cons] at htail
      have hleft : (part :: parts).flatMap (fun segment => '/' :: segment) ++ ['/'] =
          '/' :: (part ++ '/' :: xs) := by
        rw [List.flatMap_cons, List.append_assoc, hxs, List.cons_append]
      have hright : (first :: owner ++ rest).flatMap (fun segment => '/' :: segment) =
          '/' :: (first ++ '/' :: ys) := by
        rw [List.cons_append, List.flatMap_cons, hys, List.cons_append]
      rw [hleft, hright, List.cons_prefix_cons, append_slash_prefix_iff hparts.1 howner.1,
        List.cons.injEq]
      rw [eq_self_iff_true, true_and] at htail ⊢
      rw [htail]

variable {chars : List Char}

section Texts

variable {c : Char} {cs : List Char}

structure Bare (p : Char → Bool) (cs : List Char) : Prop where
  first : ∀ c, cs.head? = some c → p c = false
  last : ∀ c, cs.getLast? = some c → p c = false

theorem bare_of_ends {p : Char → Bool} {cs : List Char}
    (hfirst : (cs.head?.all fun c => !p c) = true)
    (hlast : (cs.getLast?.all fun c => !p c) = true) : Bare p cs where
  first c hc := by
    rw [hc] at hfirst
    exact (Bool.not_eq_true' _).mp hfirst
  last c hc := by
    rw [hc] at hlast
    exact (Bool.not_eq_true' _).mp hlast

theorem trimChars_eq {cs : List Char} :
    trimChars chars cs = (cs.dropWhile (· ∈ chars)).rdropWhile (· ∈ chars) := rfl

theorem trimChars_of_bare (h : Bare (· ∈ chars) cs) : trimChars chars cs = cs := by
  have hfirst : cs.dropWhile (· ∈ chars) = cs := by
    cases cs with
    | nil => rfl
    | cons c cs =>
      exact List.dropWhile_cons_of_neg (by rw [h.first c rfl]; exact Bool.false_ne_true)
  rw [trimChars_eq, hfirst, List.rdropWhile_eq_self_iff]
  intro hne hlast
  rw [h.last _ (List.getLast?_eq_some_getLast hne)] at hlast
  cases hlast

theorem mem_of_mem_trimChars (h : c ∈ trimChars chars cs) : c ∈ cs := by
  rw [trimChars_eq] at h
  exact List.dropWhile_subset _ ((List.rdropWhile_prefix _ _).subset h)

theorem bare_trimChars {cs : List Char} : Bare (· ∈ chars) (trimChars chars cs) where
  first := by
    intro c hhead
    rw [trimChars_eq] at hhead
    obtain ⟨rest, hrest⟩ := List.rdropWhile_prefix (· ∈ chars) (cs.dropWhile (· ∈ chars))
    have hdropped : (cs.dropWhile (· ∈ chars)).head? = some c := by
      rw [← hrest, List.head?_append, hhead]
      rfl
    have hnot := List.head?_dropWhile_not (· ∈ chars) cs
    rw [hdropped] at hnot
    exact hnot
  last := by
    intro c hlast
    rw [trimChars_eq] at hlast
    have hne : (cs.dropWhile (· ∈ chars)).rdropWhile (· ∈ chars) ≠ [] := by
      intro hnil
      rw [hnil] at hlast
      cases hlast
    rw [List.getLast?_eq_some_getLast hne, Option.some.injEq] at hlast
    rw [← hlast]
    exact Bool.not_eq_true _ ▸ List.rdropWhile_last_not _ _ hne

end Texts

structure Segment (cs : List Char) : Prop where
  nonempty : cs ≠ []
  chars : ∀ c ∈ cs, isKeyChar c = true
  notRelative : cs ≠ ['.'] ∧ cs ≠ ['.', '.']

theorem segment_of_all {cs : List Char} (hne : cs ≠ []) (h : cs.all isKeyChar = true)
    (hrelative : cs ≠ ['.'] ∧ cs ≠ ['.', '.']) : Segment cs :=
  ⟨hne, List.all_eq_true.mp h, hrelative⟩

theorem isKeyChar_cases {c : Char} (h : isKeyChar c = true) :
    (c.isAlpha = true ∨ c.isDigit = true) ∨ c = '.' ∨ c = '_' ∨ c = '=' ∨ c = '-' := by
  simpa [isKeyChar, Char.isAlphanum, or_assoc] using h

theorem toNat_of_isKeyChar {c : Char} (h : isKeyChar c = true) : 45 ≤ c.toNat ∧ c.toNat ≤ 122 ∧
    c.toNat ≠ 47 ∧ c.toNat ≠ 92 := by
  rcases isKeyChar_cases h with (halpha | hdigit) | rfl | rfl | rfl | rfl
  · have hcase : (c.isUpper || c.isLower) = true := halpha
    rcases (Bool.or_eq_true _ _).mp hcase with hupper | hlower
    · have hbounds : 65 ≤ c.toNat ∧ c.toNat ≤ 90 := of_decide_eq_true hupper
      omega
    · obtain ⟨hleft, hright⟩ := (Bool.and_eq_true _ _).mp hlower
      have h₁ : 97 ≤ c.toNat := of_decide_eq_true hleft
      have h₂ : c.toNat ≤ 122 := of_decide_eq_true hright
      omega
  · simp only [Char.isDigit, Bool.and_eq_true, decide_eq_true_eq, ge_iff_le] at hdigit
    have h₁ : 48 ≤ c.toNat := hdigit.1
    have h₂ : c.toNat ≤ 57 := hdigit.2
    omega
  · decide
  · decide
  · decide
  · decide

theorem isSpace_of_isKeyChar {c : Char} (h : isKeyChar c = true) : Text.isSpace c = false := by
  obtain ⟨hlow, hhigh, -⟩ := toNat_of_isKeyChar h
  rw [← Bool.not_eq_true]
  intro hspace
  simp only [Text.isSpace, Bool.or_eq_true, Bool.and_eq_true, decide_eq_true_eq, beq_iff_eq]
    at hspace
  omega

theorem notMem_of_isKeyChar {cs : List Char} (h : ∀ c ∈ cs, isKeyChar c = true) :
    '/' ∉ cs ∧ '\\' ∉ cs := by
  refine ⟨fun hmem => ?_, fun hmem => ?_⟩
  · exact absurd (h _ hmem) (by decide)
  · exact absurd (h _ hmem) (by decide)

theorem isKeyChar_of_mem_dashRuns {kept : Char → Bool} {c : Char} {inRun : Bool} {cs : List Char}
    (h : c ∈ dashRuns kept inRun cs) : kept c = true ∨ c = '-' := by
  induction cs generalizing inRun with
  | nil => cases h
  | cons d cs ih =>
    rw [dashRuns] at h
    split at h
    · next hkept =>
      rcases List.mem_cons.mp h with rfl | hmem
      · exact .inl hkept
      · exact ih hmem
    · split at h
      · exact ih h
      · rcases List.mem_cons.mp h with rfl | hmem
        · exact .inr rfl
        · exact ih hmem

theorem segment_sanitizeKeyPart {value : String} : Segment (sanitizeKeyPart value).toList := by
  unfold sanitizeKeyPart
  dsimp only
  generalize hcleaned : trimChars ['.', '-', '/'] (dashRuns isKeyChar false _) = cleaned
  have hbare : Bare (· ∈ ['.', '-', '/']) cleaned := hcleaned ▸ bare_trimChars
  split
  · next hne =>
    rw [String.toList_ofList]
    refine ⟨hne, fun c hc => ?_, ?_, ?_⟩
    · rw [← hcleaned] at hc
      rcases isKeyChar_of_mem_dashRuns (mem_of_mem_trimChars hc) with hkept | rfl
      · exact hkept
      · decide
    · rintro rfl
      cases hbare.first '.' rfl
    · rintro rfl
      cases hbare.first '.' rfl
  · exact segment_of_all (by decide) (by decide) ⟨by decide, by decide⟩

theorem isKeyChar_of_isDigit {c : Char} (h : c.isDigit = true) : isKeyChar c = true := by
  simp [isKeyChar, Char.isAlphanum, h]

theorem isKeyChar_of_isLower {c : Char} (h : c.isLower = true) : isKeyChar c = true := by
  have halpha : c.isAlpha = true := by
    have hcase : (c.isUpper || c.isLower) = true := by rw [h, Bool.or_true]
    exact hcase
  simp [isKeyChar, Char.isAlphanum, halpha]

variable {width : Nat}

theorem mem_leftpad {c d : Char} {cs : List Char} (h : c ∈ cs.leftpad width d) :
    c = d ∨ c ∈ cs := by
  rw [List.leftpad, List.mem_append] at h
  exact h.imp_left List.eq_of_mem_replicate

theorem leftpad_ne_nil {d : Char} {cs : List Char} (h : cs ≠ []) : cs.leftpad width d ≠ [] := by
  rw [List.leftpad]
  exact List.append_ne_nil_of_right_ne_nil _ h

variable {n : Int}

theorem zeroPadded_eq {width : Nat} : ∃ sign digits : List Char,
    (zeroPadded width n).toList = sign ++ digits ∧ (sign = [] ∨ sign = ['-']) ∧ digits ≠ [] ∧
      ∀ c ∈ digits, c.isDigit = true := by
  have hdigits : ∀ (width n : Nat), (Nat.toDigits 10 n).leftpad width '0' ≠ [] ∧
      ∀ c ∈ (Nat.toDigits 10 n).leftpad width '0', c.isDigit = true := by
    intro width n
    refine ⟨leftpad_ne_nil Nat.toDigits_ne_nil, fun c hc => ?_⟩
    rcases mem_leftpad hc with rfl | hmem
    · decide
    · exact Nat.isDigit_of_mem_toDigits (by omega) (by omega) hmem
  cases n with
  | ofNat n =>
    exact ⟨[], _, String.toList_ofList, .inl rfl, (hdigits width n).1, (hdigits width n).2⟩
  | negSucc n =>
    exact ⟨['-'], _, String.toList_ofList, .inr rfl, (hdigits (width - 1) (n + 1)).1,
      (hdigits (width - 1) (n + 1)).2⟩

theorem segment_of_mem {cs : List Char} {c : Char} (hmem : c ∈ cs) (hc : c ≠ '.')
    (h : ∀ c ∈ cs, isKeyChar c = true) : Segment cs := by
  refine ⟨List.ne_nil_of_mem hmem, h, ?_, ?_⟩
  · rintro rfl
    simp [hc] at hmem
  · rintro rfl
    simp [hc] at hmem

theorem isKeyChar_zeroPadded {c : Char} (h : c ∈ (zeroPadded width n).toList) :
    isKeyChar c = true := by
  obtain ⟨sign, digits, heq, hsign, -, hdigits⟩ := zeroPadded_eq
  rw [heq, List.mem_append] at h
  rcases h with hmem | hmem
  · rcases hsign with rfl | rfl
    · cases hmem
    · obtain rfl := List.mem_singleton.mp hmem
      decide
  · exact isKeyChar_of_isDigit (hdigits c hmem)

theorem isKeyChar_lowerAlphanum {text : String} {c : Char} (h : c ∈ (lowerAlphanum text).toList) :
    c.isLower = true ∨ c.isDigit = true := by
  rw [lowerAlphanum, String.toList_ofList, List.mem_filter, Bool.or_eq_true] at h
  exact h.2

structure Rooted (start : List Char) : Prop where
  nonempty : start ≠ []
  bare : Bare (· ∈ ['/']) start

theorem rooted_configured {setting default : String} (h : Rooted default.toList) :
    Rooted (configured setting default).toList := by
  unfold configured
  dsimp only
  split
  · next hne =>
    rw [stripSlashes] at hne ⊢
    rw [String.toList_ofList]
    refine ⟨fun hnil => hne ?_, bare_trimChars⟩
    rw [hnil]
  · exact h

theorem rooted_audioPrefix {settings : Settings} : Rooted settings.audioPrefix.toList :=
  rooted_configured ⟨by decide, bare_of_ends (by decide) (by decide)⟩

theorem rooted_meetingPrefix (settings : Settings) : Rooted settings.meetingPrefix.toList :=
  rooted_configured ⟨by decide, bare_of_ends (by decide) (by decide)⟩

variable {value : String}

section Keys

variable {start : List Char} {segments : List (List Char)} {configured key : String}

theorem Segment.noSlash {cs : List Char} (h : Segment cs) : '/' ∉ cs :=
  (notMem_of_isKeyChar h.chars).1

section

variable (h : ∀ segment ∈ segments, Segment segment)

include h

theorem noSlash_of_segments : ∀ segment ∈ segments, '/' ∉ segment := fun segment hmem =>
    (h segment hmem).noSlash

theorem mem_tail {c : Char} (hmem : c ∈ segments.flatMap fun segment => '/' :: segment) :
    c = '/' ∨ isKeyChar c = true := by
  obtain ⟨segment, hsegment, hc⟩ := List.mem_flatMap.mp hmem
  rcases List.mem_cons.mp hc with rfl | hc
  · exact .inl rfl
  · exact .inr ((h segment hsegment).chars c hc)

theorem isSpace_tail {c : Char} (hmem : c ∈ segments.flatMap fun segment => '/' :: segment) :
    Text.isSpace c = false := by
  rcases mem_tail h hmem with rfl | hkey
  · decide
  · exact isSpace_of_isKeyChar hkey

theorem isSpace_last {c : Char} (hne : segments ≠ [])
    (hlast : (path start segments).getLast? = some c) : Text.isSpace c = false := by
  have htail : segments.flatMap (fun segment => '/' :: segment) ≠ [] := by
    obtain ⟨first, rest, rfl⟩ := List.exists_cons_of_ne_nil hne
    simp
  rw [path, List.getLast?_append_of_ne_nil _ htail] at hlast
  exact isSpace_tail h (List.mem_of_getLast? hlast)

theorem splitOn_of_segments (start : List Char) :
    (path start segments).splitOn '/' = start.splitOn '/' ++ segments :=
  splitOn_path (noSlash_of_segments h)

theorem mem_split_iff {segment : String} (hkey : key.toList = path configured.toList segments) :
    segment ∈ Text.split '/' key ↔
      segment ∈ Text.split '/' configured ∨ segment.toList ∈ segments := by
  have hmem : ∀ lists : List (List Char),
      segment ∈ lists.map String.ofList ↔ segment.toList ∈ lists := by
    intro lists
    constructor
    · rintro hmem
      obtain ⟨cs, hcs, rfl⟩ := List.mem_map.mp hmem
      rwa [String.toList_ofList]
    · intro hmem
      exact List.mem_map.mpr ⟨_, hmem, String.ofList_toList⟩
  rw [Text.split, Text.split, hkey, splitOn_of_segments h, hmem, hmem, List.mem_append]

theorem relative_of_split {segment : String} (hkey : key.toList = path configured.toList segments)
    (hmem : segment ∈ Text.split '/' key) (hrelative : segment = "." ∨ segment = "..") :
    segment ∈ Text.split '/' configured := by
  rcases (mem_split_iff h hkey).mp hmem with hstart | hsegment
  · exact hstart
  · obtain ⟨hdot, hdots⟩ := (h _ hsegment).notRelative
    rcases hrelative with rfl | rfl
    · exact absurd rfl hdot
    · exact absurd rfl hdots

end

theorem validateScope_ok {message expected : String} :
    validateScope message expected key = .ok value ↔
      validateObjectKey key = .ok value ∧ expected.toList <+: value.toList := by
  unfold validateScope
  cases hvalid : validateObjectKey key with
  | error error =>
    constructor
    · intro h
      cases h
    · rintro ⟨h, -⟩
      cases h
  | ok checked =>
    show (if expected.toList <+: checked.toList then Except.ok checked else throw message) = _ ↔ _
    split
    · next hpre =>
      constructor
      · rintro ⟨rfl⟩
        exact ⟨rfl, hpre⟩
      · rintro ⟨h, -⟩
        exact h
    · next hpre =>
      constructor
      · intro h
        cases h
      · rintro ⟨⟨rfl⟩, h⟩
        exact absurd h hpre

/-- What `validate_object_key` makes of a text. -/
def cleaned (key : String) : List Char :=
  (Text.replace '\\' '/' (Text.strip key)).toList.dropWhile (· = '/')

theorem validateObjectKey_eq {key : String} :
    validateObjectKey key =
      if cleaned key = [] ∨ ".." ∈ Text.split '/' (.ofList (cleaned key)) then
        .error "Invalid S3 object key"
      else .ok (.ofList (cleaned key)) := by
  unfold validateObjectKey
  dsimp only
  have hempty : String.ofList (cleaned key) = "" ↔ cleaned key = [] := by
    constructor
    · intro h
      have hlist := congrArg String.toList h
      rwa [String.toList_ofList] at hlist
    · exact fun h => congrArg String.ofList h
  exact if_congr (or_congr_left hempty) rfl rfl

theorem validateObjectKey_ok (h : validateObjectKey key = .ok value) :
    value.toList = cleaned key ∧ ".." ∉ Text.split '/' value := by
  rw [validateObjectKey_eq] at h
  split at h
  · cases h
  · next hvalid =>
    obtain rfl := Except.ok.inj h
    rw [not_or] at hvalid
    exact ⟨String.toList_ofList, hvalid.2⟩

theorem cleaned_eq {key : String} :
    cleaned key =
      ((Text.trim key.toList).map fun c => if c = '\\' then '/' else c).dropWhile (· = '/') := by
  rw [cleaned, Text.replace, String.toList_ofList, Text.toList_strip]

theorem notMem_cleaned {key : String} : '\\' ∉ cleaned key := by
  intro hmem
  unfold cleaned at hmem
  exact Text.notMem_replace (Text.strip key) (by decide) (List.dropWhile_subset _ hmem)

theorem trim_sublist (cs : List Char) : (Text.trim cs).Sublist (cs.dropWhile Text.isSpace) :=
  (List.rdropWhile_prefix Text.isSpace _).sublist

theorem countP_cleaned_lt {c : Char} {cs : List Char} (hkey : key.toList = c :: cs)
    (hc : Text.isSpace c = true) :
    (cleaned key).countP Text.isSpace < key.toList.countP Text.isSpace := by
  have hmap : ∀ cs : List Char, (cs.map fun c => if c = '\\' then '/' else c).countP Text.isSpace =
      cs.countP Text.isSpace := by
    intro cs
    rw [List.countP_map]
    refine List.countP_congr fun c _ => ?_
    rw [Function.comp_apply]
    split
    · next hc =>
      rw [hc]
      decide
    · rfl
  have htrim : (Text.trim key.toList).countP Text.isSpace ≤ cs.countP Text.isSpace := by
    have hsublist := trim_sublist key.toList
    rw [hkey, List.dropWhile_cons_of_pos hc] at hsublist
    rw [hkey]
    exact (hsublist.trans (List.dropWhile_sublist _)).countP_le
  have hdrop : (cleaned key).countP Text.isSpace ≤ (Text.trim key.toList).countP Text.isSpace := by
    rw [cleaned_eq]
    exact ((List.dropWhile_sublist _).countP_le).trans (hmap _).le
  rw [hkey, List.countP_cons_of_pos hc]
  omega

theorem countP_path (h : ∀ segment ∈ segments, Segment segment) {start : List Char} :
    (path start segments).countP Text.isSpace = start.countP Text.isSpace := by
  have htail : (segments.flatMap fun segment => '/' :: segment).countP Text.isSpace = 0 := by
    rw [List.countP_eq_zero]
    intro c hmem
    rw [isSpace_tail h hmem]
    exact Bool.false_ne_true
  rw [path, List.countP_append, htail, Nat.add_zero]

theorem cleaned_of_plain (hroot : Rooted configured.toList)
    (h : ∀ segment ∈ segments, Segment segment) (hne : segments ≠ [])
    (hkey : key.toList = path configured.toList segments) (hbackslash : '\\' ∉ configured.toList)
    (hblank : ∀ c, configured.toList.head? = some c → Text.isSpace c = false) :
    cleaned key = key.toList := by
  obtain ⟨c, cs, hstart⟩ := List.exists_cons_of_ne_nil hroot.nonempty
  have hhead : key.toList.head? = some c := by
    rw [hkey, hstart]
    rfl
  have hnonempty : key.toList ≠ [] := by
    intro hnil
    rw [hnil] at hhead
    cases hhead
  have htrimmed : Text.Trimmed key.toList := by
    constructor
    · intro d hd
      rw [hhead] at hd
      obtain rfl := Option.some.inj hd
      exact hblank c (by rw [hstart]; rfl)
    · intro d hd
      rw [Option.mem_def, hkey] at hd
      exact isSpace_last h hne hd
  have hnone : ∀ d ∈ key.toList, d ≠ '\\' := by
    rintro d hd rfl
    rw [hkey, path, List.mem_append] at hd
    rcases hd with hd | hd
    · exact hbackslash hd
    · rcases mem_tail h hd with hslash | hkeyChar
      · cases hslash
      · exact absurd hkeyChar (by decide)
  have hmap : key.toList.map (fun d => if d = '\\' then '/' else d) = key.toList := by
    refine (List.map_congr_left fun d hd => ?_).trans (List.map_id _)
    exact if_neg (hnone d hd)
  have hfirst : decide (c = '/') = false := by
    have hbare := hroot.bare.first c (by rw [hstart]; rfl)
    simpa using hbare
  rw [cleaned_eq, Text.trim_of_trimmed htrimmed hnonempty, hmap]
  cases hcs : key.toList with
  | nil => exact absurd hcs hnonempty
  | cons d ds =>
    rw [hcs] at hhead
    obtain rfl := Option.some.inj hhead
    exact List.dropWhile_cons_of_neg (by rw [hfirst]; exact Bool.false_ne_true)

theorem validateObjectKey_of_usable (hroot : Rooted configured.toList)
    (h : ∀ segment ∈ segments, Segment segment) (hne : segments ≠ [])
    (hkey : key.toList = path configured.toList segments) (husable : Usable configured) :
    validateObjectKey key = .ok key := by
  have hcleaned := cleaned_of_plain hroot h hne hkey husable.noBackslash husable.noBlank
  have hnonempty : key.toList ≠ [] := by
    rw [hkey, path]
    exact List.append_ne_nil_of_left_ne_nil hroot.nonempty _
  have hparent : ".." ∉ Text.split '/' key := fun hmem =>
    husable.noParent (relative_of_split h hkey hmem (.inr rfl))
  rw [validateObjectKey_eq, hcleaned, String.ofList_toList, if_neg]
  rw [not_or]
  exact ⟨hnonempty, hparent⟩

theorem usable_of_ok (hroot : Rooted configured.toList)
    (h : ∀ segment ∈ segments, Segment segment) (hne : segments ≠ [])
    (hkey : key.toList = path configured.toList segments)
    (hvalid : validateObjectKey key = .ok value) (hpre : configured.toList <+: value.toList) :
    Usable configured ∧ value = key := by
  obtain ⟨hvalue, hparent⟩ := validateObjectKey_ok hvalid
  rw [hvalue] at hpre
  have hbackslash : '\\' ∉ configured.toList := fun hmem =>
    notMem_cleaned (hpre.subset hmem)
  have hblank : ∀ c, configured.toList.head? = some c → Text.isSpace c = false := by
    intro c hhead
    rw [← Bool.not_eq_true]
    intro hspace
    obtain ⟨d, cs, hstart⟩ := List.exists_cons_of_ne_nil hroot.nonempty
    rw [hstart] at hhead
    obtain rfl := Option.some.inj hhead
    have hcons : key.toList = d :: (cs ++ segments.flatMap fun segment => '/' :: segment) := by
      rw [hkey, hstart]
      rfl
    have hlt := countP_cleaned_lt hcons hspace
    rw [hkey, countP_path h] at hlt
    exact absurd hpre.sublist.countP_le (Nat.not_le.mpr hlt)
  have hsame : value = key := by
    apply String.toList_injective
    rw [hvalue, cleaned_of_plain hroot h hne hkey hbackslash hblank]
  refine ⟨⟨hbackslash, hblank, fun hmem => hparent ?_⟩, hsame⟩
  rw [hsame]
  exact (mem_split_iff h hkey).mpr (.inl hmem)

end Keys

theorem map_toList_inj {xs ys : List String} :
    xs.map String.toList = ys.map String.toList ↔ xs = ys := by
  have hinjective : Function.Injective String.toList := fun _ _ => String.toList_injective
  exact (List.map_injective_iff.mpr hinjective).eq_iff

section Scopes

variable {Owner : Type} {configured key message : String} {parts : Owner → List String}
  {validate : Owner → Except String String} {expected : Owner → String} {owner : Owner}
  {rest : List (List Char)}

theorem isolates_of_path (hroot : Rooted configured.toList)
    (hvalidate : ∀ other, validate other = validateScope message (expected other) key)
    (hexpected : ∀ other,
      (expected other).toList = path configured.toList ((parts other).map String.toList) ++ ['/'])
    (hparts : ∀ other, ∀ part ∈ parts other, Segment part.toList)
    (hlength : ∀ other, (parts other).length = (parts owner).length)
    (hrest : rest ≠ []) (hsegments : ∀ segment ∈ rest, Segment segment)
    (hkey : key.toList =
      path configured.toList ((parts owner).map String.toList ++ rest)) :
    Isolates configured parts validate owner key := by
  have howned : ∀ other, ∀ segment ∈ (parts other).map String.toList, Segment segment := by
    rintro other _ hmem
    obtain ⟨part, hpart, rfl⟩ := List.mem_map.mp hmem
    exact hparts other part hpart
  have hall : ∀ segment ∈ (parts owner).map String.toList ++ rest, Segment segment :=
    List.forall_mem_append.mpr ⟨howned owner, hsegments⟩
  have hne : (parts owner).map String.toList ++ rest ≠ [] :=
    List.append_ne_nil_of_right_ne_nil _ hrest
  have hscope : ∀ other, (expected other).toList <+: key.toList ↔ parts other = parts owner := by
    intro other
    rw [hexpected, hkey, scope_prefix_iff (by simpa using hlength other)
      (noSlash_of_segments (howned other)) (noSlash_of_segments (howned owner)) hrest]
    exact map_toList_inj
  have hstart : ∀ other, configured.toList <+: (expected other).toList := by
    intro other
    rw [hexpected, path, List.append_assoc]
    exact List.prefix_append _ _
  refine ⟨fun other => ?_, fun other value hvalid => ?_, fun segment hmem hrelative => ?_⟩
  · rw [hvalidate, validateScope_ok, hscope]
    refine and_congr_left fun hsame => ?_
    constructor
    · intro hvalid
      exact (usable_of_ok hroot hall hne hkey hvalid
        ((hstart other).trans ((hscope other).mpr hsame))).1
    · exact validateObjectKey_of_usable hroot hall hne hkey
  · rw [hvalidate, validateScope_ok] at hvalid
    exact (usable_of_ok hroot hall hne hkey hvalid.1 ((hstart other).trans hvalid.2)).2
  · exact relative_of_split hall hkey hmem hrelative

theorem parts_of_path {other : Owner} {rest' : List (List Char)}
    (hparts : ∀ owner, ∀ part ∈ parts owner, Segment part.toList)
    (hlength : (parts other).length = (parts owner).length)
    (hsegments : ∀ segment ∈ rest, Segment segment)
    (hsegments' : ∀ segment ∈ rest', Segment segment)
    (hkey : key.toList = path configured.toList ((parts owner).map String.toList ++ rest))
    (hkey' : key.toList = path configured.toList ((parts other).map String.toList ++ rest')) :
    parts other = parts owner := by
  have howned : ∀ owner, ∀ segment ∈ (parts owner).map String.toList, Segment segment := by
    rintro owner _ hmem
    obtain ⟨part, hpart, rfl⟩ := List.mem_map.mp hmem
    exact hparts owner part hpart
  have hsplit := splitOn_of_segments
    (List.forall_mem_append.mpr ⟨howned owner, hsegments⟩) configured.toList
  have hsplit' := splitOn_of_segments
    (List.forall_mem_append.mpr ⟨howned other, hsegments'⟩) configured.toList
  rw [← hkey] at hsplit
  rw [← hkey', hsplit, List.append_cancel_left_eq] at hsplit'
  have hsame := List.append_inj_left hsplit' (by simpa using hlength.symm)
  exact (map_toList_inj.mp hsame).symm

end Scopes

section Built

variable {settings : Settings} {lower : String → String} {key : String}

theorem toList_intercalate_slash {start : String} {parts : List String} :
    ("/".intercalate (start :: parts)).toList = path start.toList (parts.map String.toList) := by
  induction parts generalizing start with
  | nil => simp [path]
  | cons part parts ih =>
    rw [String.intercalate_cons_cons, String.toList_append, String.toList_append, ih,
      List.map_cons, path_cons, List.append_assoc]
    rfl

theorem Segment.bare {cs : List Char} (h : Segment cs) : Bare (· ∈ ['/']) cs where
  first := by
    intro c hc
    have hne : c ≠ '/' := fun heq => h.noSlash (heq ▸ List.mem_of_head? hc)
    simpa using hne
  last := by
    intro c hc
    have hne : c ≠ '/' := fun heq => h.noSlash (heq ▸ List.mem_of_getLast? hc)
    simpa using hne

theorem filter_map_stripSlashes {parts : List String}
    (h : ∀ part ∈ parts, Rooted part.toList) :
    (parts.filter (· ≠ "")).map stripSlashes = parts := by
  have hfilter : parts.filter (· ≠ "") = parts := by
    refine List.filter_eq_self.mpr fun part hpart => ?_
    have hne : part ≠ "" := by
      rintro rfl
      exact (h _ hpart).nonempty rfl
    simpa using hne
  rw [hfilter]
  refine (List.map_congr_left fun part hpart => ?_).trans (List.map_id parts)
  rw [stripSlashes, trimChars_of_bare (h part hpart).bare, String.ofList_toList]
  rfl

theorem length_parts (owner : ConversationOwner) : owner.parts.length = 3 := rfl

theorem length_meetingParts (owner : MeetingOwner) : owner.parts.length = 2 := rfl

theorem segment_owner (owner : ConversationOwner) :
    ∀ part ∈ owner.parts, Segment part.toList := by
  rintro part hpart
  simp only [ConversationOwner.parts, List.mem_cons, List.not_mem_nil, or_false] at hpart
  rcases hpart with rfl | rfl | rfl
  · exact segment_sanitizeKeyPart
  · exact segment_sanitizeKeyPart
  · exact segment_sanitizeKeyPart

theorem segment_meetingOwner (owner : MeetingOwner) :
    ∀ part ∈ owner.parts, Segment part.toList := by
  rintro part hpart
  simp only [MeetingOwner.parts, List.mem_cons, List.not_mem_nil, or_false] at hpart
  rcases hpart with rfl | rfl
  · exact segment_sanitizeKeyPart
  · exact segment_sanitizeKeyPart

def Dashed (cs : List Char) : Prop := '-' ∈ cs.tail

theorem tail_append_of_ne_nil {xs ys : List Char} (h : xs ≠ []) :
    (xs ++ ys).tail = xs.tail ++ ys := List.tail_append_of_ne_nil h

theorem zeroPadded_ne_nil {width : Nat} : (zeroPadded width n).toList ≠ [] := by
  obtain ⟨sign, digits, heq, -, hne, -⟩ := zeroPadded_eq
  rw [heq]
  exact List.append_ne_nil_of_right_ne_nil _ hne

theorem notMem_tail_zeroPadded {width : Nat} : '-' ∉ (zeroPadded width n).toList.tail := by
  obtain ⟨sign, digits, heq, hsign, hne, hdigits⟩ := zeroPadded_eq
  have hnotMem : '-' ∉ digits := fun hmem => absurd (hdigits _ hmem) (by decide)
  rw [heq]
  rcases hsign with rfl | rfl
  · exact fun hmem => hnotMem (List.mem_of_mem_tail hmem)
  · exact hnotMem

theorem AudioKey.exists_path {owner : ConversationOwner} (h : AudioKey settings lower owner key) :
    ∃ file, Segment file ∧ Dashed file ∧
      key.toList = path settings.audioPrefix.toList (owner.parts.map String.toList ++ [file]) := by
  obtain ⟨hbuilt⟩ := h
  rename_i sequenceNumber chunkId extension
  unfold buildConversationAudioObjectKey at hbuilt
  cases hext : sanitizeExtension lower extension with
  | error error =>
    rw [hext] at hbuilt
    cases hbuilt
  | ok safeExtension =>
    rw [hext] at hbuilt
    obtain rfl := Except.ok.inj hbuilt
    have hchars : ∀ c ∈ safeExtension.toList, isKeyChar c = true := by
      unfold sanitizeExtension at hext
      dsimp only at hext
      split at hext
      · cases hext
      · obtain rfl := Except.ok.inj hext
        intro c hc
        rcases isKeyChar_lowerAlphanum hc with hlower | hdigit
        · exact isKeyChar_of_isLower hlower
        · exact isKeyChar_of_isDigit hdigit
    have htoList : (zeroPadded 8 sequenceNumber ++ "-" ++ sanitizeKeyPart chunkId ++ "." ++
        safeExtension).toList = (zeroPadded 8 sequenceNumber).toList ++
          '-' :: ((sanitizeKeyPart chunkId).toList ++ '.' :: safeExtension.toList) := by
      simp
    generalize hfile : zeroPadded 8 sequenceNumber ++ "-" ++ sanitizeKeyPart chunkId ++ "." ++
      safeExtension = file at htoList
    have hdash : '-' ∈ file.toList := by
      rw [htoList]
      exact List.mem_append_right _ List.mem_cons_self
    have hsegment : Segment file.toList := by
      refine segment_of_mem hdash (by decide) fun c hc => ?_
      simp only [htoList, List.mem_append, List.mem_cons] at hc
      rcases hc with hc | rfl | hc | rfl | hc
      · exact isKeyChar_zeroPadded hc
      · decide
      · exact (segment_sanitizeKeyPart).chars c hc
      · decide
      · exact hchars c hc
    refine ⟨file.toList, hsegment, ?_, ?_⟩
    · rw [Dashed, htoList, tail_append_of_ne_nil zeroPadded_ne_nil]
      exact List.mem_append_right _ List.mem_cons_self
    · have hrooted : ∀ part ∈ [settings.audioPrefix] ++ owner.parts ++ [file],
          Rooted part.toList := by
        rw [List.append_assoc, List.singleton_append, List.forall_mem_cons,
          List.forall_mem_append, List.forall_mem_singleton]
        exact ⟨rooted_audioPrefix,
          fun part hpart => ⟨(segment_owner owner part hpart).nonempty,
            (segment_owner owner part hpart).bare⟩,
          hsegment.nonempty, hsegment.bare⟩
      rw [filter_map_stripSlashes hrooted, List.append_assoc, List.singleton_append,
        toList_intercalate_slash, List.map_append]
      rfl

theorem toList_meetingScope (owner : MeetingOwner) :
    (meetingScope settings owner).toList =
      path settings.meetingPrefix.toList (owner.parts.map String.toList) ++ ['/'] := by
  simp [meetingScope, path, MeetingOwner.parts]

theorem MeetingKey.exists_path {owner : MeetingOwner} (h : MeetingKey settings lower owner key) :
    ∃ front file, (∀ segment ∈ front ++ [file], Segment segment) ∧ ¬ Dashed file ∧
      key.toList =
        path settings.meetingPrefix.toList (owner.parts.map String.toList ++ (front ++ [file])) :=
          by
  have hfile : ∀ file : String, (meetingScope settings owner ++ file).toList =
      path settings.meetingPrefix.toList
        (owner.parts.map String.toList ++ [file.toList]) := by
    intro file
    rw [String.toList_append, toList_meetingScope, path_append, List.append_assoc]
    simp [path]
  cases h with
  | chunk sequence extension mediaKind =>
    unfold meetingChunkObjectKey
    dsimp only
    generalize hext : (if lowerAlphanum (lower extension) ≠ "" then
      lowerAlphanum (lower extension) else "webm") = suffix
    have hchars : ∀ c ∈ suffix.toList, c.isLower = true ∨ c.isDigit = true := by
      rw [← hext]
      split
      · exact fun c hc => isKeyChar_lowerAlphanum hc
      · have hall : ("webm".toList.all Char.isLower) = true := by decide
        exact fun c hc => .inl (List.all_eq_true.mp hall c hc)
    have hfolder : Segment (mediaFolder mediaKind).toList := by
      unfold mediaFolder
      split
      · exact segment_of_all (by decide) (by decide) ⟨by decide, by decide⟩
      · split
        · exact segment_of_all (by decide) (by decide) ⟨by decide, by decide⟩
        · exact segment_of_all (by decide) (by decide) ⟨by decide, by decide⟩
    have htoList : (zeroPadded 6 sequence ++ "." ++ suffix).toList =
        (zeroPadded 6 sequence).toList ++ '.' :: suffix.toList := by
      simp
    obtain ⟨sign, digits, heq, -, hne, hdigits⟩ := zeroPadded_eq
    obtain ⟨digit, hdigit⟩ := List.exists_mem_of_ne_nil _ hne
    have hsegment : Segment (zeroPadded 6 sequence ++ "." ++ suffix).toList := by
      have hmem : digit ∈ (zeroPadded 6 sequence ++ "." ++ suffix).toList := by
        rw [htoList, heq]
        exact List.mem_append_left _ (List.mem_append_right _ hdigit)
      refine segment_of_mem hmem ?_ fun c hc => ?_
      · rintro rfl
        exact absurd (hdigits _ hdigit) (by decide)
      · rw [htoList, List.mem_append, List.mem_cons] at hc
        rcases hc with hc | rfl | hc
        · exact isKeyChar_zeroPadded hc
        · decide
        · rcases hchars c hc with hlower | hdigit
          · exact isKeyChar_of_isLower hlower
          · exact isKeyChar_of_isDigit hdigit
    refine ⟨[(mediaFolder mediaKind).toList], (zeroPadded 6 sequence ++ "." ++ suffix).toList, ?_,
      ?_,
      ?_⟩
    · rw [List.singleton_append, List.forall_mem_cons, List.forall_mem_singleton]
      exact ⟨hfolder, hsegment⟩
    · rw [htoList, Dashed, tail_append_of_ne_nil zeroPadded_ne_nil, List.mem_append,
        List.mem_cons, not_or, not_or]
      refine ⟨notMem_tail_zeroPadded, by decide, fun hmem => ?_⟩
      exact absurd (hchars _ hmem) (by decide)
    · simp only [String.toList_append, toList_meetingScope, path_append, List.append_assoc]
      simp [path]
  | final =>
    refine ⟨[], "meeting.mp4".toList, ?_, by unfold Dashed; decide, hfile _⟩
    rw [List.nil_append, List.forall_mem_singleton]
    exact segment_of_all (by decide) (by decide) ⟨by decide, by decide⟩
  | thumbnail =>
    refine ⟨[], "thumbnail.jpg".toList, ?_, by unfold Dashed; decide, hfile _⟩
    rw [List.nil_append, List.forall_mem_singleton]
    exact segment_of_all (by decide) (by decide) ⟨by decide, by decide⟩

theorem AudioKey.isolates {owner : ConversationOwner} (h : AudioKey settings lower owner key) :
    Isolates settings.audioPrefix ConversationOwner.parts
      (validateConversationAudioObjectKey settings key) owner key := by
  obtain ⟨file, hsegment, -, hkey⟩ := h.exists_path
  refine isolates_of_path rooted_audioPrefix (fun _ => rfl) (fun other => ?_)
    segment_owner (fun other => (length_parts other).trans (length_parts owner).symm)
    (List.cons_ne_nil file []) (List.forall_mem_singleton.mpr hsegment) hkey
  rw [expectedConversationAudioPrefix, String.toList_append, List.singleton_append,
    toList_intercalate_slash]
  rfl

theorem MeetingKey.isolates {owner : MeetingOwner} (h : MeetingKey settings lower owner key) :
    Isolates settings.meetingPrefix MeetingOwner.parts (validateMeetingObjectKey settings key) owner
      key := by
  obtain ⟨front, file, hsegments, -, hkey⟩ := h.exists_path
  exact isolates_of_path (rooted_meetingPrefix settings) (fun _ => rfl)
    (fun other => toList_meetingScope other) segment_meetingOwner
    (fun other => (length_meetingParts other).trans (length_meetingParts owner).symm)
    (List.append_ne_nil_of_right_ne_nil _ (List.cons_ne_nil file [])) hsegments hkey

theorem AudioKey.parts_eq {owner other : ConversationOwner}
    (h : AudioKey settings lower owner key) (hother : AudioKey settings lower other key) :
    other.parts = owner.parts := by
  obtain ⟨file, hsegment, -, hkey⟩ := h.exists_path
  obtain ⟨file', hsegment', -, hkey'⟩ := hother.exists_path
  exact parts_of_path segment_owner ((length_parts other).trans (length_parts owner).symm)
    (List.forall_mem_singleton.mpr hsegment) (List.forall_mem_singleton.mpr hsegment') hkey hkey'

theorem MeetingKey.parts_eq {owner other : MeetingOwner}
    (h : MeetingKey settings lower owner key) (hother : MeetingKey settings lower other key) :
    other.parts = owner.parts := by
  obtain ⟨front, file, hsegments, -, hkey⟩ := h.exists_path
  obtain ⟨front', file', hsegments', -, hkey'⟩ := hother.exists_path
  exact parts_of_path segment_meetingOwner
    ((length_meetingParts other).trans (length_meetingParts owner).symm) hsegments hsegments' hkey
    hkey'

theorem AudioKey.not_meeting {owner : ConversationOwner} {other : MeetingOwner}
    (h : AudioKey settings lower owner key) : ¬ MeetingKey settings lower other key := by
  intro hother
  obtain ⟨file, hsegment, hdashed, hkey⟩ := h.exists_path
  obtain ⟨front, file', hsegments, hplain, hkey'⟩ := hother.exists_path
  have howned : ∀ {parts : List String}, (∀ part ∈ parts, Segment part.toList) →
      ∀ segment ∈ parts.map String.toList, Segment segment := by
    rintro parts hparts _ hmem
    obtain ⟨part, hpart, rfl⟩ := List.mem_map.mp hmem
    exact hparts part hpart
  have hsplit := splitOn_of_segments (List.forall_mem_append.mpr
    ⟨howned (segment_owner owner), List.forall_mem_singleton.mpr hsegment⟩)
    settings.audioPrefix.toList
  have hsplit' := splitOn_of_segments (List.forall_mem_append.mpr
    ⟨howned (segment_meetingOwner other), hsegments⟩) settings.meetingPrefix.toList
  rw [← hkey, ← List.append_assoc] at hsplit
  rw [← hkey', ← List.append_assoc, ← List.append_assoc] at hsplit'
  have hsame := congrArg List.getLast? (hsplit.symm.trans hsplit')
  rw [List.getLast?_concat, List.getLast?_concat] at hsame
  exact hplain (Option.some.inj hsame ▸ hdashed)

end Built

/-- Keys isolate their owners as far as their ids can be told apart once they are sanitised: a key
is accepted for an owner exactly if the configured prefix is usable and the parts of the key that
name the owner are the same, relative segments come from the configured prefix only, and two owners
with different parts share no key. -/
theorem object_keys_isolate (settings : Settings) (lower : String → String) :
    (∀ owner key, AudioKey settings lower owner key →
      Isolates settings.audioPrefix ConversationOwner.parts
        (validateConversationAudioObjectKey settings key) owner key ∧
      (∀ other, AudioKey settings lower other key → other.parts = owner.parts) ∧
      ∀ other, ¬ MeetingKey settings lower other key) ∧
    ∀ owner key, MeetingKey settings lower owner key →
      Isolates settings.meetingPrefix MeetingOwner.parts (validateMeetingObjectKey settings key)
        owner key ∧
      ∀ other, MeetingKey settings lower other key → other.parts = owner.parts :=
  ⟨fun _ _ h => ⟨h.isolates, fun _ => h.parts_eq, fun _ => h.not_meeting⟩,
    fun _ _ h => ⟨h.isolates, fun _ => h.parts_eq⟩⟩

theorem notSpace_head {cs : List Char} (h : (cs.head?.all fun c => !Text.isSpace c) = true) :
    ∀ c, cs.head? = some c → Text.isSpace c = false := by
  intro c hc
  rw [hc] at h
  exact (Bool.not_eq_true' _).mp h

theorem usable_defaults : Usable ({} : Settings).audioPrefix ∧
    Usable ({} : Settings).meetingPrefix :=
  ⟨⟨by decide +kernel, notSpace_head (by decide +kernel), by decide +kernel⟩,
    ⟨by decide +kernel, notSpace_head (by decide +kernel), by decide +kernel⟩⟩

theorem shared_object_key :
    buildConversationAudioObjectKey {} Text.lower ⟨"user/1", "space 1", "conv-1"⟩ 2 "chunk-1"
        ".webm" = .ok "buddy/audio/user-1/space-1/conv-1/00000002-chunk-1.webm" ∧
      buildConversationAudioObjectKey {} Text.lower ⟨"user-1", "space 1", "conv-1"⟩ 2 "chunk-1"
        ".webm" = .ok "buddy/audio/user-1/space-1/conv-1/00000002-chunk-1.webm" ∧
      validateConversationAudioObjectKey {}
        "buddy/audio/user-1/space-1/conv-1/00000002-chunk-1.webm" ⟨"user-1", "space 1", "conv-1"⟩ =
          .ok "buddy/audio/user-1/space-1/conv-1/00000002-chunk-1.webm" ∧
      meetingFinalObjectKey {} ⟨"", "m"⟩ = meetingFinalObjectKey {} ⟨"unknown", "m"⟩ ∧
      validateMeetingObjectKey { meetingS3Prefix := ".." }
        (meetingFinalObjectKey { meetingS3Prefix := ".." } ⟨"u", "m"⟩) ⟨"u", "m"⟩ =
          .error "Invalid S3 object key" := by
  refine ⟨?_, ?_, ?_, ?_, ?_⟩ <;> decide +kernel

end AiBuddy.Storage
