import Revng.Support.Debug

set_option autoImplicit false

/-! # What `flush` writes

The lines of a message are meant to be `List.splitOn '\n'` of the buffer without its trailing
newline. The loop of `flush` finds one delimiter per round (`find_spec`) and writes the text before
it, which is one `splitOnP_first` step; the last round finds none, and `End - Start` wraps to a count
that `substr` cuts at the end of the text (`continuationLines_eq`). So, for a buffer whose size is a
`size_t` and a location field that is off or wider than `":" + Line`, `flush` returns after as many
rounds as the message has newlines and writes every line once, in order (`flush_splits_lines`). A
field too narrow for the suffix stops `flush` at the assertion of line 49 before it writes
anything (`flush_aborts_short_location`).

The location field is `MaxLocationLength + 3` characters wide whenever its assertion holds, and none
of its `size_t` subtractions wraps (`locationField_width`). The continuation padding does not count
that field: with the location on, the lines after the first start `MaxLocationLength + 3` columns
left of the first (`flush_line_columns`; one message, `flush_misaligns_continuation`). -/

namespace Revng

namespace Logger

open StdString

/-! ## Lines of a message -/

theorem length_splitOn (c : Char) (l : List Char) : (l.splitOn c).length = l.count c + 1 := by
  induction l with
  | nil => rfl
  | cons x l ih =>
    simp only [List.splitOn, List.splitOnP_cons] at ih ⊢
    by_cases hx : x = c
    · simp [hx, ih]
    · simp [hx, ih, List.count_cons]

theorem splitOn_of_not_mem {c : Char} {l : List Char} (h : c ∉ l) : l.splitOn c = [l] :=
  List.splitOnP_eq_single _ _ fun x hx hxc => h (by simpa [eq_of_beq hxc] using hx)

theorem splitOn_append_cons {c : Char} {a : List Char} (h : c ∉ a) (b : List Char) :
    (a ++ c :: b).splitOn c = a :: b.splitOn c :=
  List.splitOnP_first _ _ (fun x hx hxc => h (by simpa [eq_of_beq hxc] using hx)) c (by simp) b

/-! ## The loop -/

/-- The loop entered at a delimiter `end_`, with `r` the text after it: with fuel beyond the
    delimiters `r` holds, it writes each segment of `r` after `pad`. -/
theorem continuationLines_eq {data : List Char} (pad : List Char) (hs : data.length < 2 ^ 64) :
    ∀ (fuel : Nat) (end_ : UInt64) (r : List Char), end_ ≠ npos →
      data.drop (end_.toNat + 1) = r → r.count '\n' < fuel →
      continuationLines data pad fuel end_ =
        some ((r.splitOn '\n').map fun line => pad ++ line ++ ['\n']).flatten
  | 0, _, _, _, _, hfuel => absurd hfuel (Nat.not_lt_zero _)
  | fuel + 1, end_, r, hend, hr, hfuel => by
    have hstart : (end_ + 1).toNat = end_.toNat + 1 := toNat_add_one_of_ne_npos hend
    rw [continuationLines]
    rcases find_spec hs '\n' (end_ + 1) with ⟨hc, hnpos⟩ | ⟨a, b, hab, hc, hfind, hne⟩
    · -- the last round: no delimiter after `Start`, and `substr` cuts `npos - Start` at the end
      rw [hstart, hr] at hc
      have hlen : r.length ≤ (npos - (end_ + 1)).toNat := by
        have hsize : (end_ + 1).toNat < 2 ^ 64 := (end_ + 1).toNat_lt_size
        rw [UInt64.toNat_sub_of_le _ _ (le_iff_toNat_le.2 (by rw [toNat_npos]; omega)), toNat_npos,
          ← hr, List.length_drop]
        omega
      simp only [hnpos, if_true, substr, hstart, hr, List.take_of_length_le hlen,
        splitOn_of_not_mem hc, List.map_cons, List.map_nil, List.flatten_cons, List.flatten_nil,
        List.append_nil]
    · -- a delimiter at `End`: write the text before it, go on after it
      rw [hstart, hr] at hab
      subst hab
      have hsub : (find data '\n' (end_ + 1) - (end_ + 1)).toNat = a.length := by
        rw [UInt64.toNat_sub_of_le _ _ (le_iff_toNat_le.2 (by omega)), hfind, hstart]
        omega
      have hnext : data.drop ((find data '\n' (end_ + 1)).toNat + 1) = b := by
        rw [hfind, hstart, show end_.toNat + 1 + a.length + 1 = end_.toNat + 1 + (a.length + 1) by
          omega, ← List.drop_drop, hr]
        simp
      have hcount : b.count '\n' < fuel := by
        simp [List.count_append, List.count_cons] at hfuel
        omega
      simp only [hne, if_false, substr, hstart, hr, hsub, List.take_left' rfl,
        continuationLines_eq pad hs fuel _ b hne hnext hcount, Option.map_some',
        splitOn_append_cons hc, List.map_cons, List.flatten_cons, List.append_assoc]

/-- Lines 67–69: for a buffer whose size is a `size_t`, `resize(size() - 1)` drops the last
    character, so the data is the buffer without one trailing newline. -/
theorem dropTrailingNewline_eq {data : List Char} (hs : data.length < 2 ^ 64) :
    dropTrailingNewline data = if data.getLast? = some '\n' then data.dropLast else data := by
  unfold dropTrailingNewline
  by_cases hl : data.getLast? = some '\n'
  · have hpos : 0 < data.length := List.length_pos.2 fun h => by simp [h] at hl
    have hsize : (size data - 1).toNat = data.length - 1 := by
      rw [UInt64.toNat_sub_of_le _ _ (le_iff_toNat_le.2 (by rw [toNat_size hs]; exact hpos)),
        toNat_size hs]
      rfl
    simp [hl, resize, hsize, lt_iff_toNat_lt, toNat_size hs, hpos, List.dropLast_eq_take]
  · simp [hl]

/-- Lines 71–83 from the top of the data: the first line is the first segment, and the loop, when
    it runs, writes the others. -/
theorem lines_eq {data : List Char} (pad : List Char) (hs : data.length < 2 ^ 64) {fuel : Nat}
    (hfuel : data.length < fuel) {seg : List Char} {rest : List (List Char)}
    (hsplit : data.splitOn '\n' = seg :: rest) :
    substr data 0 (find data '\n' 0) = seg ∧
      (if find data '\n' 0 ≠ npos then continuationLines data pad fuel (find data '\n' 0)
        else some []) = some (rest.map fun line => pad ++ line ++ ['\n']).flatten := by
  rcases find_spec hs '\n' 0 with ⟨hc, hnpos⟩ | ⟨a, b, hab, hc, hfind, hne⟩
  · -- one line: `substr(0, npos)` is the whole data
    rw [splitOn_of_not_mem (by simpa using hc)] at hsplit
    obtain ⟨rfl, rfl⟩ := List.cons_eq_cons.1 hsplit
    have hlen : data.length ≤ npos.toNat := by rw [toNat_npos]; omega
    simp [substr, hnpos, List.take_of_length_le hlen]
  · simp only [UInt64.toNat_zero, List.drop_zero] at hab hfind
    subst hab
    rw [splitOn_append_cons hc b] at hsplit
    obtain ⟨rfl, rfl⟩ := List.cons_eq_cons.1 hsplit
    have hcount : b.count '\n' < fuel := by
      have := List.count_le_length '\n' b
      simp only [List.length_append, List.length_cons] at hfuel
      omega
    refine ⟨by simp [substr, hfind], ?_⟩
    rw [if_pos hne, continuationLines_eq pad hs fuel _ b hne (by simp [hfind]) hcount]

/-- The data splits into a first segment and the rest. -/
theorem exists_splitOn_eq_cons (data : List Char) :
    ∃ seg rest, data.splitOn '\n' = seg :: rest :=
  List.exists_cons_of_length_pos (by rw [length_splitOn]; omega)

/-- Lines 43–88 on an enabled logger whose location field is `loc`: with enough fuel, `flush`
    writes the header, the first segment and the others after the padding, and empties the
    buffer. -/
theorem flush_of_location_ok {cfg : LogConfig} {lineInfo : LogTerminator} {l : Logger}
    {loc : List Char} (he : l.isEnabled = true) (hloc : location cfg lineInfo = .ok loc)
    (hs : l.buffer.length < 2 ^ 64) (indentLevel : UInt32) (dbg : List Char) {fuel : Nat}
    (hfuel : l.buffer.length < fuel) {seg : List Char} {rest : List (List Char)}
    (hsplit : (dropTrailingNewline l.buffer).splitOn '\n' = seg :: rest) :
    flush cfg lineInfo l indentLevel dbg fuel = some (.ok ({ l with buffer := [] },
      dbg ++ loc ++ nameField cfg.maxLoggerNameLength l.name indentLevel ++ seg ++ ['\n'] ++
        (rest.map fun line =>
          continuationPad cfg.maxLoggerNameLength indentLevel ++ line ++ ['\n']).flatten)) := by
  have hlen : (dropTrailingNewline l.buffer).length ≤ l.buffer.length := by
    rw [dropTrailingNewline_eq hs]; split_ifs <;> simp
  obtain ⟨hfirst, hrest⟩ := lines_eq (continuationPad cfg.maxLoggerNameLength indentLevel)
    (by omega) (hlen.trans_lt hfuel) hsplit
  rw [flush, if_pos he, hloc]
  simp only [hrest, hfirst, Option.map_some', List.append_assoc]

/-- The assertion of line 49, `Suffix.size() < MaxLocationLength`, read on lengths. -/
theorem size_lt_toUInt64 {M : UInt32} {suffix : List Char} (hM : suffix.length < M.toNat) :
    size suffix < M.toUInt64 := by
  have hM32 : M.toNat < 2 ^ 32 := M.toNat_lt_size
  rw [lt_iff_toNat_lt, toNat_size (by omega), toNat_toUInt64]
  exact hM

/-- With the location field off, or wide enough for `":" + Line`, the assertion of line 49 holds
    and `flush` goes on to write. -/
theorem location_ok {cfg : LogConfig} {lineInfo : LogTerminator}
    (hM : cfg.maxLocationLength = 0 ∨
      (':' :: (Nat.repr lineInfo.line).toList).length < cfg.maxLocationLength.toNat) :
    ∃ loc, location cfg lineInfo = .ok loc := by
  rcases hM with h0 | hM
  · exact ⟨[], by simp [location, h0]⟩
  · have hne : cfg.maxLocationLength ≠ 0 := fun h0 => by simp [h0] at hM
    simp only [location, if_pos hne, locationField, if_pos (size_lt_toUInt64 hM)]
    exact ⟨_, rfl⟩

/-- `flush` on an enabled logger whose name is no longer than `MaxLoggerNameLength`, with the
    location field off or wider than `":" + Line`, and whose buffer `D` is any `std::string`,
    returns once the fuel exceeds `D`'s length. Its lines, header and paddings apart, are the
    segments of `D'`, which is `D` without one trailing newline, split at `'\n'`: one more than the
    newlines of `D'`, and they join back to `D'`. Afterwards the buffer is empty. -/
theorem flush_splits_lines (cfg : LogConfig) (lineInfo : LogTerminator) (l : Logger)
    (indentLevel : UInt32) (dbg : List Char) (he : l.isEnabled = true)
    (hs : l.buffer.length < 2 ^ 64) (fuel : Nat) (hfuel : l.buffer.length < fuel)
    (hM : cfg.maxLocationLength = 0 ∨
      (':' :: (Nat.repr lineInfo.line).toList).length < cfg.maxLocationLength.toNat)
    (_hname : l.name.length ≤ cfg.maxLoggerNameLength.toNat) :
    ∃ d' seg rest,
      d' = (if l.buffer.getLast? = some '\n' then l.buffer.dropLast else l.buffer) ∧
      d'.splitOn '\n' = seg :: rest ∧ (seg :: rest).length = d'.count '\n' + 1 ∧
      ['\n'].intercalate (seg :: rest) = d' ∧
      ∃ loc, location cfg lineInfo = .ok loc ∧
        flush cfg lineInfo l indentLevel dbg fuel = some (.ok ({ l with buffer := [] },
          dbg ++ loc ++ nameField cfg.maxLoggerNameLength l.name indentLevel ++ seg ++ ['\n'] ++
            (rest.map fun line =>
              continuationPad cfg.maxLoggerNameLength indentLevel ++ line ++ ['\n']).flatten)) := by
  obtain ⟨seg, rest, hsplit⟩ := exists_splitOn_eq_cons (dropTrailingNewline l.buffer)
  obtain ⟨loc, hloc⟩ := location_ok hM
  exact ⟨_, seg, rest, dropTrailingNewline_eq hs, hsplit, hsplit ▸ length_splitOn _ _,
    hsplit ▸ List.intercalate_splitOn _ '\n', loc, hloc,
    flush_of_location_ok he hloc hs indentLevel dbg hfuel hsplit⟩

theorem flush_splits_lines_twoLines :
    (⟨true, true, "passes".toList, "a\nb".toList⟩ : Logger).isEnabled = true ∧
    "a\nb".toList.length < 2 ^ 64 ∧ "a\nb".toList.length < 4 ∧
    ((12 : UInt32) = 0 ∨ (':' :: (Nat.repr 7).toList).length < (12 : UInt32).toNat) ∧
    "passes".toList.length ≤ (6 : UInt64).toNat ∧
    ∃ d' seg rest,
      d' = (if "a\nb".toList.getLast? = some '\n' then "a\nb".toList.dropLast else "a\nb".toList) ∧
      d'.splitOn '\n' = seg :: rest ∧ (seg :: rest).length = d'.count '\n' + 1 ∧
      ['\n'].intercalate (seg :: rest) = d' ∧
      ∃ loc, location ⟨12, 6⟩ ⟨"lib/Support/Debug.cpp".toList, 7⟩ = .ok loc ∧
        flush ⟨12, 6⟩ ⟨"lib/Support/Debug.cpp".toList, 7⟩
          ⟨true, true, "passes".toList, "a\nb".toList⟩ 0 [] 4 =
          some (.ok (⟨true, true, "passes".toList, []⟩,
            [] ++ loc ++ nameField 6 "passes".toList 0 ++ seg ++ ['\n'] ++
              (rest.map fun line => continuationPad 6 0 ++ line ++ ['\n']).flatten)) :=
  ⟨rfl, by decide, by decide, .inr (by decide), by decide,
    flush_splits_lines ⟨12, 6⟩ ⟨"lib/Support/Debug.cpp".toList, 7⟩
      ⟨true, true, "passes".toList, "a\nb".toList⟩ 0 [] rfl (by decide) 4 (by decide)
      (.inr (by decide)) (by decide)⟩

/-- With `-debug-location-max-length=1`, the suffix `":7"` does not fit: `flush` stops at the
    assertion of line 49 before it writes anything, and the message stays in the buffer. -/
theorem flush_aborts_short_location :
    location ⟨1, 6⟩ ⟨"lib/Support/Debug.cpp".toList, 7⟩ =
        .error (.assertion "Suffix.size() < MaxLocationLength") ∧
    flush ⟨1, 6⟩ ⟨"lib/Support/Debug.cpp".toList, 7⟩
        ⟨true, true, "passes".toList, "a\nb".toList⟩ 0 [] 4 =
      some (.error (.assertion "Suffix.size() < MaxLocationLength")) :=
  ⟨rfl, rfl⟩

/-! ## The location field -/

/-- Lines 50–53: the file itself when it has no `/`, else what follows its last `/`. -/
theorem baseName_spec {file : List Char} (hF : file.length < 2 ^ 64) :
    ('/' ∉ file ∧ baseName file = file) ∨
      ∃ dir, file = dir ++ '/' :: baseName file ∧ '/' ∉ baseName file := by
  rcases rfind_spec hF '/' with ⟨hc, hn⟩ | ⟨a, b, hab, hc, hr, hne⟩
  · exact .inl ⟨hc, by simp [baseName, hn]⟩
  · have hb : baseName file = b := by
      subst hab
      simp [baseName, hne, erase, toNat_add_one_of_ne_npos hne, hr]
    exact .inr ⟨a, by rw [hb, hab], hb ▸ hc⟩

theorem length_baseName_le (file : List Char) : (baseName file).length ≤ file.length := by
  simp only [baseName]
  split_ifs <;> simp [erase]

/-- Lines 55–57: `erase(n, npos)` when the string is longer than `n` keeps its first `n`
    characters, and so does leaving it as it is. -/
theorem truncate_eq {s : List Char} (hs : s.length < 2 ^ 64) (n : UInt64) :
    (if size s > n then erase s n npos else s) = s.take n.toNat := by
  have hsize : size s > n ↔ n.toNat < s.length := by
    rw [gt_iff_lt, lt_iff_toNat_lt, toNat_size hs]
  by_cases h : n.toNat < s.length
  · have hdrop : s.drop (n.toNat + npos.toNat) = [] :=
      List.drop_eq_nil_of_le (by rw [toNat_npos]; omega)
    simp [hsize.2 h, erase, hdrop]
  · simp [mt hsize.1 h, List.take_of_length_le (Nat.le_of_not_lt h)]

/-- `location` is the location field whenever `MaxLocationLength` is not `0`. -/
theorem location_of_ne_zero {cfg : LogConfig} (h : cfg.maxLocationLength ≠ 0)
    (lineInfo : LogTerminator) :
    location cfg lineInfo = locationField cfg.maxLocationLength lineInfo := by
  rw [location, if_pos h]

/-- The three `size_t` subtractions of lines 55–60 do not wrap once the suffix is shorter than
    `MaxLocationLength` and the location fits beside it. -/
theorem locationField_sub_toNat {M : UInt32} {suffix loc : List Char}
    (hM : suffix.length < M.toNat) (hloc : loc.length ≤ M.toNat - suffix.length) :
    (M.toUInt64 - size suffix).toNat = M.toNat - suffix.length ∧
    (M.toUInt64 - size loc).toNat = M.toNat - loc.length ∧
    (M.toUInt64 - size loc - size suffix).toNat = M.toNat - loc.length - suffix.length := by
  have hM32 : M.toNat < 2 ^ 32 := M.toNat_lt_size
  have hsuf : (size suffix).toNat = suffix.length := toNat_size (by omega)
  have hlocs : (size loc).toNat = loc.length := toNat_size (by omega)
  have h2 : (M.toUInt64 - size loc).toNat = M.toNat - loc.length := by
    rw [UInt64.toNat_sub_of_le _ _ (le_iff_toNat_le.2 (by rw [toNat_toUInt64, hlocs]; omega)),
      toNat_toUInt64, hlocs]
  refine ⟨?_, h2, ?_⟩
  · rw [UInt64.toNat_sub_of_le _ _ (le_iff_toNat_le.2 (by rw [toNat_toUInt64, hsuf]; omega)),
      toNat_toUInt64, hsuf]
  · rw [UInt64.toNat_sub_of_le _ _ (le_iff_toNat_le.2 (by rw [h2, hsuf]; omega)), h2, hsuf]

/-- Lines 48–61 under the assertion: `[`, the base name cut to fit, the suffix, `] ` and the
    spaces that fill the field. -/
theorem locationField_eq {M : UInt32} {lineInfo : LogTerminator} {suffix loc : List Char}
    (hsuffix : suffix = ':' :: (Nat.repr lineInfo.line).toList)
    (hloc : loc = (baseName lineInfo.file).take (M.toNat - suffix.length))
    (hM : suffix.length < M.toNat) (hF : lineInfo.file.length < 2 ^ 64) :
    locationField M lineInfo = .ok ('[' :: loc ++ suffix ++ "] ".toList ++
      List.replicate (M.toNat - loc.length - suffix.length) ' ') := by
  obtain ⟨h1, -, h3⟩ := locationField_sub_toNat hM (hloc ▸ List.length_take_le _ _)
  simp only [locationField, ← hsuffix, if_pos (size_lt_toUInt64 hM),
    truncate_eq ((length_baseName_le lineInfo.file).trans_lt hF), h1, ← hloc, h3]

theorem length_locationField_text {M : Nat} {loc suffix : List Char}
    (h : loc.length + suffix.length ≤ M) :
    ('[' :: loc ++ suffix ++ "] ".toList ++
      List.replicate (M - loc.length - suffix.length) ' ').length = M + 3 := by
  simp only [List.length_cons, List.length_append, List.length_replicate]
  simp
  omega

/-- Lines 47–62 under `Suffix.size() < MaxLocationLength`: the field is `[`, the base name of the
    file cut to `MaxLocationLength - Suffix.size()` characters, the suffix, `] ` and spaces, and is
    `MaxLocationLength + 3` characters wide; `flush` writes it right after what `dbg` holds; and
    none of the three `size_t` subtractions wraps. -/
theorem locationField_width (M : UInt32) (lineInfo : LogTerminator)
    (hM : (':' :: (Nat.repr lineInfo.line).toList).length < M.toNat)
    (hF : lineInfo.file.length < 2 ^ 64) :
    ∃ suffix base loc pad, suffix = ':' :: (Nat.repr lineInfo.line).toList ∧
      (('/' ∉ lineInfo.file ∧ base = lineInfo.file) ∨
        ∃ dir, lineInfo.file = dir ++ '/' :: base ∧ '/' ∉ base) ∧
      loc = base.take (M.toNat - suffix.length) ∧
      pad = List.replicate (M.toNat - loc.length - suffix.length) ' ' ∧
      ('[' :: loc ++ suffix ++ "] ".toList ++ pad).length = M.toNat + 3 ∧
      locationField M lineInfo = .ok ('[' :: loc ++ suffix ++ "] ".toList ++ pad) ∧
      (∀ (cfg : LogConfig) (l : Logger) (indentLevel : UInt32) (dbg : List Char) (fuel : Nat),
        cfg.maxLocationLength = M → l.isEnabled = true →
        l.name.length ≤ cfg.maxLoggerNameLength.toNat → l.buffer.length < 2 ^ 64 →
        l.buffer.length < fuel → ∃ rest, flush cfg lineInfo l indentLevel dbg fuel =
          some (.ok ({ l with buffer := [] },
            dbg ++ ('[' :: loc ++ suffix ++ "] ".toList ++ pad) ++ rest))) ∧
      (M.toUInt64 - size suffix).toNat + suffix.length = M.toNat ∧
      (M.toUInt64 - size loc).toNat + loc.length = M.toNat ∧
      (M.toUInt64 - size loc - size suffix).toNat + loc.length + suffix.length = M.toNat := by
  obtain ⟨suffix, hsuffix⟩ : ∃ suffix, suffix = ':' :: (Nat.repr lineInfo.line).toList := ⟨_, rfl⟩
  obtain ⟨loc, hloc⟩ : ∃ loc, loc = (baseName lineInfo.file).take (M.toNat - suffix.length) :=
    ⟨_, rfl⟩
  rw [← hsuffix] at hM
  have hlen : loc.length ≤ M.toNat - suffix.length := hloc ▸ List.length_take_le _ _
  obtain ⟨h1, h2, h3⟩ := locationField_sub_toNat hM hlen
  have hfield := locationField_eq hsuffix hloc hM hF
  refine ⟨suffix, _, loc, _, hsuffix, baseName_spec hF, hloc, rfl,
    length_locationField_text (by omega), hfield, ?_, by omega, by omega, by omega⟩
  intro cfg l indentLevel dbg fuel hcfg he _ hs hfuel
  subst hcfg
  have hne : cfg.maxLocationLength ≠ 0 := fun h0 => by simp [h0] at hM
  obtain ⟨seg, rest, hsplit⟩ := exists_splitOn_eq_cons (dropTrailingNewline l.buffer)
  have hloc := (location_of_ne_zero hne lineInfo).trans hfield
  exact ⟨_, (flush_of_location_ok he hloc hs indentLevel dbg hfuel hsplit).trans
    (by simp only [List.append_assoc]; rfl)⟩

theorem locationField_width_debugCpp :
    (':' :: (Nat.repr 7).toList).length < (12 : UInt32).toNat ∧
    "lib/Support/Debug.cpp".toList.length < 2 ^ 64 ∧
    ∃ suffix base loc pad, suffix = ':' :: (Nat.repr 7).toList ∧
      (('/' ∉ "lib/Support/Debug.cpp".toList ∧ base = "lib/Support/Debug.cpp".toList) ∨
        ∃ dir, "lib/Support/Debug.cpp".toList = dir ++ '/' :: base ∧ '/' ∉ base) ∧
      loc = base.take ((12 : UInt32).toNat - suffix.length) ∧
      pad = List.replicate ((12 : UInt32).toNat - loc.length - suffix.length) ' ' ∧
      ('[' :: loc ++ suffix ++ "] ".toList ++ pad).length = (12 : UInt32).toNat + 3 ∧
      locationField 12 ⟨"lib/Support/Debug.cpp".toList, 7⟩ =
        .ok ('[' :: loc ++ suffix ++ "] ".toList ++ pad) ∧
      (∀ (cfg : LogConfig) (l : Logger) (indentLevel : UInt32) (dbg : List Char) (fuel : Nat),
        cfg.maxLocationLength = 12 → l.isEnabled = true →
        l.name.length ≤ cfg.maxLoggerNameLength.toNat → l.buffer.length < 2 ^ 64 →
        l.buffer.length < fuel → ∃ rest,
          flush cfg ⟨"lib/Support/Debug.cpp".toList, 7⟩ l indentLevel dbg fuel =
            some (.ok ({ l with buffer := [] },
              dbg ++ ('[' :: loc ++ suffix ++ "] ".toList ++ pad) ++ rest))) ∧
      ((12 : UInt32).toUInt64 - size suffix).toNat + suffix.length = (12 : UInt32).toNat ∧
      ((12 : UInt32).toUInt64 - size loc).toNat + loc.length = (12 : UInt32).toNat ∧
      ((12 : UInt32).toUInt64 - size loc - size suffix).toNat + loc.length + suffix.length =
        (12 : UInt32).toNat :=
  ⟨by decide, by decide,
    locationField_width 12 ⟨"lib/Support/Debug.cpp".toList, 7⟩ (by decide) (by decide)⟩

/-! ## Where the lines start -/

theorem toNat_indent_mul_two {indentLevel : UInt32} (hI : 2 * indentLevel.toNat < 2 ^ 32) :
    (indentLevel * 2).toUInt64.toNat = 2 * indentLevel.toNat := by
  show indentLevel.toNat * 2 % 2 ^ 32 = _
  omega

/-- Lines 64–65: with the name no longer than `MaxLoggerNameLength` and no wrap, the name field
    is `3 + MaxLoggerNameLength + 2 * IndentLevel` characters wide. -/
theorem length_nameField {N : UInt64} {name : List Char} {indentLevel : UInt32}
    (hname : name.length ≤ N.toNat) (hI : 2 * indentLevel.toNat < 2 ^ 32)
    (hN : 3 + N.toNat + 2 * indentLevel.toNat < 2 ^ 64) :
    (nameField N name indentLevel).length = 3 + N.toNat + 2 * indentLevel.toNat := by
  have hsize : (N - size name).toNat = N.toNat - name.length := by
    rw [UInt64.toNat_sub_of_le _ _ (le_iff_toNat_le.2 (by rw [toNat_size (by omega)]; omega)),
      toNat_size (by omega)]
  have hpad : (N - size name + (indentLevel * 2).toUInt64).toNat =
      N.toNat - name.length + 2 * indentLevel.toNat := by
    show ((N - size name).toNat + (indentLevel * 2).toUInt64.toNat) % 2 ^ 64 = _
    rw [hsize, toNat_indent_mul_two hI, Nat.mod_eq_of_lt (by omega)]
  simp only [nameField, List.length_cons, List.length_append, List.length_replicate, hpad]
  simp
  omega

/-- Line 77: with no wrap, the continuation padding is `3 + MaxLoggerNameLength +
    2 * IndentLevel` characters wide. -/
theorem length_continuationPad {N : UInt64} {indentLevel : UInt32}
    (hI : 2 * indentLevel.toNat < 2 ^ 32) (hN : 3 + N.toNat + 2 * indentLevel.toNat < 2 ^ 64) :
    (continuationPad N indentLevel).length = 3 + N.toNat + 2 * indentLevel.toNat := by
  have h3N : (3 + N).toNat = 3 + N.toNat := Nat.mod_eq_of_lt (by change 3 + N.toNat < _; omega)
  rw [continuationPad, List.length_replicate]
  show ((3 + N).toNat + (indentLevel * 2).toUInt64.toNat) % 2 ^ 64 = _
  rw [h3N, toNat_indent_mul_two hI, Nat.mod_eq_of_lt (by omega)]

/-- For an enabled logger whose name is no longer than `MaxLoggerNameLength`, and with
    `IndentLevel * 2` wrapping neither as an `unsigned` nor in the padding, `flush` writes the
    first line after a header of `(MaxLocationLength != 0 ? MaxLocationLength + 3 : 0) + 3 +
    MaxLoggerNameLength + 2 * IndentLevel` characters and every further line after a padding of
    `3 + MaxLoggerNameLength + 2 * IndentLevel`: with the location on, the further lines start
    `MaxLocationLength + 3` columns left of the first. -/
theorem flush_line_columns (cfg : LogConfig) (lineInfo : LogTerminator) (l : Logger)
    (indentLevel : UInt32) (dbg : List Char) (fuel : Nat) (he : l.isEnabled = true)
    (hs : l.buffer.length < 2 ^ 64) (hfuel : l.buffer.length < fuel)
    (hM : cfg.maxLocationLength = 0 ∨
      (':' :: (Nat.repr lineInfo.line).toList).length < cfg.maxLocationLength.toNat)
    (hF : lineInfo.file.length < 2 ^ 64) (hname : l.name.length ≤ cfg.maxLoggerNameLength.toNat)
    (hI : 2 * indentLevel.toNat < 2 ^ 32)
    (hN : 3 + cfg.maxLoggerNameLength.toNat + 2 * indentLevel.toNat < 2 ^ 64) :
    ∃ header pad seg rest, (dropTrailingNewline l.buffer).splitOn '\n' = seg :: rest ∧
      flush cfg lineInfo l indentLevel dbg fuel = some (.ok ({ l with buffer := [] },
        dbg ++ header ++ seg ++ ['\n'] ++
          (rest.map fun line => pad ++ line ++ ['\n']).flatten)) ∧
      header.length =
        (if cfg.maxLocationLength ≠ 0 then cfg.maxLocationLength.toNat + 3 else 0) +
          (3 + cfg.maxLoggerNameLength.toNat + 2 * indentLevel.toNat) ∧
      pad.length = 3 + cfg.maxLoggerNameLength.toNat + 2 * indentLevel.toNat := by
  obtain ⟨seg, rest, hsplit⟩ := exists_splitOn_eq_cons (dropTrailingNewline l.buffer)
  obtain ⟨loc, hloc, hlen⟩ : ∃ loc, location cfg lineInfo = .ok loc ∧
      loc.length = if cfg.maxLocationLength ≠ 0 then cfg.maxLocationLength.toNat + 3 else 0 := by
    rcases hM with h0 | hM
    · exact ⟨[], by simp [location, h0], by simp [h0]⟩
    · have hne : cfg.maxLocationLength ≠ 0 := fun h0 => by simp [h0] at hM
      have htake := List.length_take_le
        (cfg.maxLocationLength.toNat - (':' :: (Nat.repr lineInfo.line).toList).length)
        (baseName lineInfo.file)
      exact ⟨_, (location_of_ne_zero hne lineInfo).trans (locationField_eq rfl rfl hM hF),
        by rw [if_pos hne]; exact length_locationField_text (by omega)⟩
  refine ⟨loc ++ nameField cfg.maxLoggerNameLength l.name indentLevel,
    continuationPad cfg.maxLoggerNameLength indentLevel, seg, rest, hsplit, ?_, ?_,
    length_continuationPad hI hN⟩
  · rw [flush_of_location_ok he hloc hs indentLevel dbg hfuel hsplit]
    simp only [List.append_assoc]
  · rw [List.length_append, hlen, length_nameField hname hI hN]

theorem flush_line_columns_debugCpp :
    (⟨true, true, "passes".toList, "a\nb".toList⟩ : Logger).isEnabled = true ∧
    "a\nb".toList.length < 2 ^ 64 ∧ "a\nb".toList.length < 4 ∧
    ((12 : UInt32) = 0 ∨ (':' :: (Nat.repr 7).toList).length < (12 : UInt32).toNat) ∧
    "lib/Support/Debug.cpp".toList.length < 2 ^ 64 ∧
    "passes".toList.length ≤ (6 : UInt64).toNat ∧ 2 * (0 : UInt32).toNat < 2 ^ 32 ∧
    3 + (6 : UInt64).toNat + 2 * (0 : UInt32).toNat < 2 ^ 64 ∧
    ∃ header pad seg rest, (dropTrailingNewline "a\nb".toList).splitOn '\n' = seg :: rest ∧
      flush ⟨12, 6⟩ ⟨"lib/Support/Debug.cpp".toList, 7⟩
          ⟨true, true, "passes".toList, "a\nb".toList⟩ 0 [] 4 =
        some (.ok (⟨true, true, "passes".toList, []⟩,
          [] ++ header ++ seg ++ ['\n'] ++
            (rest.map fun line => pad ++ line ++ ['\n']).flatten)) ∧
      header.length = (if (12 : UInt32) ≠ 0 then (12 : UInt32).toNat + 3 else 0) +
        (3 + (6 : UInt64).toNat + 2 * (0 : UInt32).toNat) ∧
      pad.length = 3 + (6 : UInt64).toNat + 2 * (0 : UInt32).toNat :=
  ⟨rfl, by decide, by decide, .inr (by decide), by decide, by decide, by decide, by decide,
    flush_line_columns ⟨12, 6⟩ ⟨"lib/Support/Debug.cpp".toList, 7⟩
      ⟨true, true, "passes".toList, "a\nb".toList⟩ 0 [] 4 rfl (by decide) (by decide)
      (.inr (by decide)) (by decide) (by decide) (by decide) (by decide)⟩

/-- With a location field of `12`, a logger name of `6` characters as long as the longest, no
    indentation and the message `a` newline `b`: the text of the first line starts at column
    `12 + 3 + 3 + 6 = 24` and that of the second at column `3 + 6 = 9`. -/
theorem flush_misaligns_continuation :
    flush ⟨12, 6⟩ ⟨"lib/Support/Debug.cpp".toList, 7⟩
        ⟨true, true, "passes".toList, "a\nb".toList⟩ 0 [] 2 =
      some (.ok (⟨true, true, "passes".toList, []⟩,
        "[Debug.cpp:7]  [passes] ".toList ++ "a\n".toList ++ List.replicate 9 ' ' ++ "b\n".toList)) ∧
    "[Debug.cpp:7]  [passes] ".toList.length = (12 + 3) + 3 + 6 + 2 * 0 :=
  ⟨rfl, rfl⟩

end Logger

end Revng
