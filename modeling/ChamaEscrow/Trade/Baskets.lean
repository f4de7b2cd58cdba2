import ChamaEscrow.Js.Decimal
import ChamaEscrow.Library.Delimited
import ChamaEscrow.Library.Sorted
import ChamaEscrow.Trade.Fees

/-!
# The basket of a menu trade

Where the funder of a menu trade is not the one who orders, its LOCK has to repeat the finalized
order.  The two item lists are compared through one text each, `selectedItemsKey`: the six fields of
an item joined by colons, the items sorted and joined by bars.  Ids, labels and currencies are free
texts that may hold both delimiters, so the key does not tell where a field ends.

`SameCuts` says that it does for two lists: item by item, in the order of the key, their fields are
equally long.  `key_eq_iff` is the algebra of the key, `basket_matches` the result for an accepted
LOCK: the basket is the order exactly when `SameCuts` holds of them, and always within the limits of
the menu and as expensive as the LOCK.
-/

namespace ChamaEscrow

open Js Library

variable {host : Host} {s s' : EscrowState} {e : ParsedEscrowEvent}

/-! ### Sorting by code units -/

def textUnits (s : String) : List ℕ := s.toList.flatMap charCodes

theorem toNat_valid (c : Char) : c.toNat < 0xD800 ∨ 0xDFFF < c.toNat ∧ c.toNat < 0x110000 := c.valid

theorem charCodes_append_inj {c d : Char} {l l' : List ℕ}
    (h : charCodes c ++ l = charCodes d ++ l') : c = d ∧ l = l' := by
  have hc := toNat_valid c
  have hd := toNat_valid d
  have heq (hnat : c.toNat = d.toNat) : c = d := Char.toNat_inj.mp hnat
  unfold charCodes at h
  split_ifs at h with hsmall hsmall' hsmall'
  · simp only [List.singleton_append, List.cons.injEq] at h
    exact ⟨heq h.1, h.2⟩
  · -- A surrogate is no character.
    simp only [List.cons_append, List.nil_append, List.cons.injEq] at h
    omega
  · simp only [List.cons_append, List.nil_append, List.cons.injEq] at h
    omega
  · simp only [List.cons_append, List.nil_append, List.cons.injEq] at h
    exact ⟨heq (by omega), h.2.2⟩

theorem charCodes_ne_nil (c : Char) : charCodes c ≠ [] := by
  unfold charCodes
  split_ifs <;> simp

theorem textUnits_injective : Function.Injective textUnits := by
  intro a b h
  have hlist (l l' : List Char) (h : l.flatMap charCodes = l'.flatMap charCodes) : l = l' := by
    induction l generalizing l' with
    | nil =>
      cases l' with
      | nil => rfl
      | cons d l' => simp [charCodes_ne_nil] at h
    | cons c l ih =>
      cases l' with
      | nil => simp [charCodes_ne_nil] at h
      | cons d l' =>
        rw [List.flatMap_cons, List.flatMap_cons] at h
        obtain ⟨rfl, hrest⟩ := charCodes_append_inj h
        rw [ih l' hrest]
  exact String.toList_inj.mp (hlist _ _ h)

theorem textLe_iff {s t : String} : textLe s t = true ↔ textUnits s ≤ textUnits t :=
  decide_eq_true_iff

/-! ### The key -/

def itemFields (item : SelectedMenuItem) : List String :=
  [item.itemId, item.label, toString item.amountMsats, toString item.quantity,
    (item.kind.map toString).getD "", item.fiatCurrency.getD ""]

def itemText (item : SelectedMenuItem) : String := ":".intercalate (itemFields item)

def sortedTexts (items : List SelectedMenuItem) : List String :=
  (items.map itemText).insertionSort fun s t => textLe s t = true

theorem selectedItemsKey_eq (items : List SelectedMenuItem) :
    selectedItemsKey items = "|".intercalate (sortedTexts items) := rfl

def fieldLengths (item : SelectedMenuItem) : List ℕ :=
  (itemFields item).map fun field => field.toList.length

/-- Two lists whose keys are cut in the same places: item by item, in the order of the key, the
fields are equally long. -/
def SameCuts (order basket : List SelectedMenuItem) : Prop :=
  ∃ order' basket' : List SelectedMenuItem, order'.Perm order ∧ basket'.Perm basket ∧
    order'.map itemText = sortedTexts order ∧ basket'.map itemText = sortedTexts basket ∧
      order'.map fieldLengths = basket'.map fieldLengths

structure OrderItem (item : SelectedMenuItem) : Prop where
  amount : item.amountMsats.isFinite = true ∧ 0 < item.amountMsats ∧
    item.amountMsats.isDouble = true
  quantity : item.quantity.isFinite = true ∧ 0 < item.quantity ∧ item.quantity.isDouble = true
  currency : item.fiatCurrency ≠ some ""

theorem kindText_injective {k k' : Option MenuItemKind}
    (h : (k.map toString).getD "" = (k'.map toString).getD "") : k = k' := by
  have hall : ∀ k ∈ [none, some MenuItemKind.exchangeBracket, some .bill, some .loan,
      some .marketItem], ∀ k' ∈ [none, some MenuItemKind.exchangeBracket, some .bill, some .loan,
      some .marketItem], (k.map toString).getD "" = (k'.map toString).getD "" → k = k' := by
    decide
  refine hall k ?_ k' ?_ h
  · rcases k with _ | _ | _ | _ | _ <;> decide
  · rcases k' with _ | _ | _ | _ | _ <;> decide

variable {a b : SelectedMenuItem}

theorem itemFields_injective (ha : OrderItem a) (hb : OrderItem b)
    (h : itemFields a = itemFields b) : a = b := by
  simp only [itemFields, List.cons.injEq, and_true] at h
  obtain ⟨hid, hlabel, hamount, hquantity, hkind, hcurrency⟩ := h
  have hamount := JsNumber.toText_injective ha.amount.2.2 hb.amount.2.2 ha.amount.2.1 hb.amount.2.1
    ha.amount.1 hb.amount.1 hamount
  have hquantity := JsNumber.toText_injective ha.quantity.2.2 hb.quantity.2.2 ha.quantity.2.1
    hb.quantity.2.1 ha.quantity.1 hb.quantity.1 hquantity
  have hkind := kindText_injective hkind
  have hcurrency : a.fiatCurrency = b.fiatCurrency := by
    have hca := ha.currency
    have hcb := hb.currency
    rcases hfa : a.fiatCurrency with _ | x <;> rcases hfb : b.fiatCurrency with _ | y <;>
      simp_all
  cases a
  cases b
  simp_all

theorem itemFields_of_lengths (htext : itemText a = itemText b)
    (hlengths : fieldLengths a = fieldLengths b) : itemFields a = itemFields b := by
  have hlists := congrArg String.toList htext
  rw [itemText, itemText, String.toList_intercalate, String.toList_intercalate] at hlists
  have hmap := intercalate_inj_of_lengths (by rwa [List.map_map, List.map_map]) hlists
  exact List.map_injective_iff.mpr (fun _ _ => String.toList_inj.mp) hmap

theorem itemText_length_of_fieldLengths (h : fieldLengths a = fieldLengths b) :
    (itemText a).toList.length = (itemText b).toList.length := by
  simp only [fieldLengths, itemFields, List.map_cons, List.map_nil, List.cons.injEq, and_true] at h
  rw [itemText, itemText, String.toList_intercalate, String.toList_intercalate]
  simp only [itemFields, List.map_cons, List.map_nil, List.intercalate_cons_cons,
    List.intercalate_singleton, List.length_append]
  omega

theorem exists_arranged (items : List SelectedMenuItem) :
    ∃ items' : List SelectedMenuItem, items'.Perm items ∧
      items'.map itemText = sortedTexts items :=
  ⟨items.insertionSort fun a b => textLe (itemText a) (itemText b) = true,
    List.perm_insertionSort _ _, List.map_insertionSort _ _ itemText _ fun _ _ _ _ => Iff.rfl⟩

theorem sortedTexts_perm {a b : List SelectedMenuItem} (h : a.Perm b) :
    sortedTexts a = sortedTexts b := by
  refine sorted_inj (fun s t => ?_) (fun s t u => ?_) (fun s t hst hts => ?_) (h.map itemText)
  · rw [textLe_iff, textLe_iff]
    exact le_total _ _
  · rw [textLe_iff, textLe_iff, textLe_iff]
    exact le_trans
  · rw [textLe_iff] at hst hts
    exact textUnits_injective (le_antisymm hst hts)

theorem SameCuts.of_perm {order basket : List SelectedMenuItem} (h : order.Perm basket) :
    SameCuts order basket := by
  obtain ⟨order', hperm, htexts⟩ := exists_arranged order
  exact ⟨order', order', hperm, hperm.trans h, htexts, htexts.trans (sortedTexts_perm h), rfl⟩

def PlainFields (item : SelectedMenuItem) : Prop :=
  ∀ field ∈ [item.itemId, item.label, item.fiatCurrency.getD ""],
    ':' ∉ field.toList ∧ '|' ∉ field.toList

theorem PlainFields.itemFields {item : SelectedMenuItem} (h : PlainFields item) :
    ∀ field ∈ itemFields item, ':' ∉ field.toList ∧ '|' ∉ field.toList := by
  have hkind : ∀ k ∈ [none, some MenuItemKind.exchangeBracket, some .bill, some .loan,
      some .marketItem], ':' ∉ ((k.map toString).getD "").toList ∧
        '|' ∉ ((k.map toString).getD "").toList := by
    decide
  have hnumber (n : JsNumber) : ':' ∉ (toString n).toList ∧ '|' ∉ (toString n).toList :=
    ⟨JsNumber.IsSeparator.notMem_toText (by decide) n,
      JsNumber.IsSeparator.notMem_toText (by decide) n⟩
  intro field hfield
  simp only [ChamaEscrow.itemFields, List.mem_cons, List.not_mem_nil, or_false] at hfield
  rcases hfield with rfl | rfl | rfl | rfl | rfl | rfl
  · exact h _ (by simp)
  · exact h _ (by simp)
  · exact hnumber _
  · exact hnumber _
  · refine hkind _ ?_
    rcases item.kind with _ | _ | _ | _ | _ <;> decide
  · exact h _ (by simp)

theorem itemFields_of_plain (ha : PlainFields a) (hb : PlainFields b)
    (h : itemText a = itemText b) : itemFields a = itemFields b := by
  have hlists := congrArg String.toList h
  rw [itemText, itemText, String.toList_intercalate, String.toList_intercalate] at hlists
  have hfree {c : SelectedMenuItem} (hc : PlainFields c) :
      ∀ field ∈ (itemFields c).map String.toList, ':' ∉ field := by
    intro field hfield
    obtain ⟨text, htext, rfl⟩ := List.mem_map.mp hfield
    exact (hc.itemFields text htext).1
  have hmap := intercalate_inj_of_notMem (hfree ha) (hfree hb) (by simp [itemFields])
    (by simp [itemFields]) hlists
  exact List.map_injective_iff.mpr (fun _ _ => String.toList_inj.mp) hmap

theorem PlainFields.bar_notMem_itemText {item : SelectedMenuItem} (h : PlainFields item) :
    '|' ∉ (itemText item).toList := by
  rw [itemText, String.toList_intercalate]
  intro hmem
  have hfields := h.itemFields
  simp only [ChamaEscrow.itemFields, List.map_cons, List.map_nil, List.intercalate_cons_cons,
    List.intercalate_singleton, List.mem_append, List.mem_cons, List.not_mem_nil, or_false]
    at hfields hmem
  have hcolon : '|' ∉ ":".toList := by decide
  grind

/-- Without delimiters in ids, labels and currencies, equal keys are cut in the same places. -/
theorem SameCuts.of_plain {order basket : List SelectedMenuItem}
    (horder : ∀ item ∈ order, PlainFields item) (hbasket : ∀ item ∈ basket, PlainFields item)
    (hne : order ≠ []) (hne' : basket ≠ [])
    (hkey : selectedItemsKey order = selectedItemsKey basket) : SameCuts order basket := by
  obtain ⟨order', hperm, htexts⟩ := exists_arranged order
  obtain ⟨basket', hperm', htexts'⟩ := exists_arranged basket
  have horder' : ∀ a ∈ order', PlainFields a := fun a ha => horder a (hperm.mem_iff.mp ha)
  have hbasket' : ∀ b ∈ basket', PlainFields b := fun b hb => hbasket b (hperm'.mem_iff.mp hb)
  have hfree {items : List SelectedMenuItem} (h : ∀ a ∈ items, PlainFields a) :
      ∀ text ∈ (items.map itemText).map String.toList, '|' ∉ text := by
    intro text htext
    obtain ⟨t, ht, rfl⟩ := List.mem_map.mp htext
    obtain ⟨a, ha, rfl⟩ := List.mem_map.mp ht
    exact (h a ha).bar_notMem_itemText
  have hsame : order'.map itemText = basket'.map itemText := by
    rw [selectedItemsKey_eq, selectedItemsKey_eq, ← htexts, ← htexts'] at hkey
    have hlists := congrArg String.toList hkey
    rw [String.toList_intercalate, String.toList_intercalate] at hlists
    have hnonempty {items items' : List SelectedMenuItem} (hp : items'.Perm items)
        (hitems : items ≠ []) : (items'.map itemText).map String.toList ≠ [] := by
      intro hmap
      have hnil : items' = [] := by simpa using hmap
      rw [hnil] at hp
      exact hitems hp.nil_eq.symm
    have hmap := intercalate_inj_of_notMem (hfree horder') (hfree hbasket') (hnonempty hperm hne)
      (hnonempty hperm' hne') hlists
    exact List.map_injective_iff.mpr (fun _ _ => String.toList_inj.mp) hmap
  refine ⟨order', basket', hperm, hperm', htexts, htexts', ?_⟩
  clear htexts htexts' hperm hperm'
  induction order' generalizing basket' with
  | nil =>
    rw [List.map_nil, eq_comm, List.map_eq_nil_iff] at hsame
    rw [hsame]
  | cons a rest ih =>
    cases basket' with
    | nil => cases hsame
    | cons b rest' =>
      obtain ⟨hhead, htail⟩ := List.cons.inj hsame
      have hfields := itemFields_of_plain (horder' a (List.mem_cons_self ..))
        (hbasket' b (List.mem_cons_self ..)) hhead
      rw [List.map_cons, List.map_cons, fieldLengths, hfields,
        ih rest' (fun c hc => horder' c (List.mem_cons_of_mem _ hc))
          (fun c hc => hbasket' c (List.mem_cons_of_mem _ hc)) htail]
      rfl

/-- Two accepted lists with one key hold the same items exactly when their keys are cut in the same
places. -/
theorem perm_iff_sameCuts {order basket : List SelectedMenuItem}
    (horder : ∀ item ∈ order, OrderItem item) (hbasket : ∀ item ∈ basket, OrderItem item)
    (hkey : selectedItemsKey order = selectedItemsKey basket) :
    order.Perm basket ↔ SameCuts order basket := by
  constructor
  · exact SameCuts.of_perm
  · rintro ⟨order', basket', hperm, hperm', htexts, htexts', hlengths⟩
    -- The texts are equally long, so the keys give them back one by one.
    have htextLengths : (order'.map itemText).map (fun t => t.toList.length) =
        (basket'.map itemText).map (fun t => t.toList.length) := by
      clear htexts htexts' hperm hperm'
      induction order' generalizing basket' with
      | nil =>
        rw [List.map_nil, eq_comm, List.map_eq_nil_iff] at hlengths
        rw [hlengths]
      | cons a rest ih =>
        cases basket' with
        | nil => cases hlengths
        | cons b rest' =>
          obtain ⟨hhead, htail⟩ := List.cons.inj hlengths
          simp only [List.map_cons]
          rw [itemText_length_of_fieldLengths hhead, ih rest' htail]
    have hsame : order'.map itemText = basket'.map itemText := by
      rw [selectedItemsKey_eq, selectedItemsKey_eq, ← htexts, ← htexts'] at hkey
      have hlists := congrArg String.toList hkey
      rw [String.toList_intercalate, String.toList_intercalate] at hlists
      have hmap := intercalate_inj_of_lengths
        (by simpa [Function.comp_def] using htextLengths) hlists
      exact List.map_injective_iff.mpr (fun _ _ => String.toList_inj.mp) hmap
    have hitems : order' = basket' := by
      have hof : ∀ a ∈ order', OrderItem a := fun a ha => horder a (hperm.mem_iff.mp ha)
      have hof' : ∀ b ∈ basket', OrderItem b := fun b hb => hbasket b (hperm'.mem_iff.mp hb)
      clear htexts htexts' hperm hperm' htextLengths
      induction order' generalizing basket' with
      | nil =>
        rw [List.map_nil, eq_comm, List.map_eq_nil_iff] at hlengths
        exact hlengths.symm
      | cons a rest ih =>
        cases basket' with
        | nil => cases hlengths
        | cons b rest' =>
          obtain ⟨hhead, htail⟩ := List.cons.inj hlengths
          obtain ⟨htext, hrest⟩ := List.cons.inj hsame
          rw [itemFields_injective (hof a (List.mem_cons_self ..)) (hof' b (List.mem_cons_self ..))
            (itemFields_of_lengths htext hhead),
            ih rest' htail hrest (fun c hc => hof c (List.mem_cons_of_mem _ hc))
              fun c hc => hof' c (List.mem_cons_of_mem _ hc)]
    subst hitems
    exact hperm.symm.trans hperm'

/-! ### What the parser accepts -/

theorem number_of_isPositiveNumber {v : JsValue} (h : isPositiveNumber v = true) :
    ∃ n, v.number? = some n ∧ n.isFinite = true ∧ 0 < n := by
  obtain ⟨n, hn, hcheck⟩ := (Option.any_eq_true _ _).mp h
  rw [Bool.and_eq_true, decide_eq_true_eq] at hcheck
  exact ⟨n, hn, hcheck⟩

theorem isDouble_of_small {n : JsNumber} (hinteger : n.isInteger = true) (hpos : 0 < n)
    (hle : n ≤ 99) : n.isFinite = true ∧ n.isDouble = true := by
  cases n with
  | fin q =>
    refine ⟨rfl, ?_⟩
    rw [JsNumber.isInteger, decide_eq_true_eq] at hinteger
    have h99 : (99 : JsNumber) = .fin 99 := JsNumber.ofInt_eq_fin (n := 99) (by decide)
    rw [JsNumber.zero_eq_fin, JsNumber.fin_lt_fin] at hpos
    rw [h99, JsNumber.fin_le_fin] at hle
    rw [JsNumber.isDouble_fin, JsNumber.ofRat, if_pos]
    refine ⟨hinteger, ?_⟩
    have hq : ((q.num : ℤ) : ℚ) = q := Rat.coe_int_num_of_den_eq_one hinteger
    rw [← hq] at hpos hle
    have hnum : 0 < q.num ∧ q.num ≤ 99 := ⟨by exact_mod_cast hpos, by exact_mod_cast hle⟩
    rw [JsNumber.maxExact]
    omega
  | _ => cases hinteger

theorem orderItem_of_validate {d : JsValue} (h : validateSelectedMenuItem d = true)
    (hdouble : (readSelectedMenuItem d).amountMsats.isDouble = true) :
    OrderItem (cloneSelectedMenuItem (readSelectedMenuItem d)) := by
  simp only [validateSelectedMenuItem, menuItemShape, Bool.and_eq_true] at h
  obtain ⟨hshape, hquantity⟩ := h
  have hamount : isPositiveNumber (d.field "amountMsats") = true := by tauto
  obtain ⟨amount, hread, hfinite, hpos⟩ := number_of_isPositiveNumber hamount
  obtain ⟨quantity, hreads, hcheck⟩ := (Option.any_eq_true _ _).mp hquantity
  simp only [Bool.and_eq_true, decide_eq_true_eq] at hcheck
  obtain ⟨⟨hinteger, hpositive⟩, hle⟩ := hcheck
  have hsmall := isDouble_of_small hinteger hpositive hle
  have hsame : (readSelectedMenuItem d).amountMsats = amount := by
    change d.numberAt "amountMsats" = amount
    rw [JsValue.numberAt, hread]
    rfl
  have hsame' : (readSelectedMenuItem d).quantity = quantity := by
    change d.numberAt "quantity" = quantity
    rw [JsValue.numberAt, hreads]
    rfl
  refine ⟨?_, ?_, ?_⟩
  · rw [hsame] at hdouble
    simpa [cloneSelectedMenuItem, hsame] using ⟨hfinite, hpos, hdouble⟩
  · simpa [cloneSelectedMenuItem, hsame'] using ⟨hsmall.1, hpositive, hsmall.2⟩
  · intro hempty
    have := Option.filter_eq_some_iff.mp hempty
    simp at this

/-- Whether the amounts of the order that an event carries are binary64 values, as every number of a
JSON document is. -/
def exactAmounts (e : ParsedEscrowEvent) : Bool :=
  match e.payload with
  | .join p => (p.selectedItems.getD []).all fun item => item.amountMsats.isDouble
  | .lock p => (p.selectedItems.getD []).all fun item => item.amountMsats.isDouble
  | _ => true

theorem orderItem_of_read {v : JsValue} (hvalid : validateSelectedMenuItems v = true)
    (hdouble : ((readArray? readSelectedMenuItem v).getD []).all
      (fun item => item.amountMsats.isDouble) = true) :
    ∀ item ∈ ((readArray? readSelectedMenuItem v).getD []).map cloneSelectedMenuItem,
      OrderItem item := by
  intro item hitem
  cases v with
  | arr items =>
    simp only [readArray?, Option.getD_some] at hitem hdouble
    simp only [validateSelectedMenuItems, absentOr, JsValue.isUndefined, elements,
      Bool.false_or, Bool.and_eq_true] at hvalid
    obtain ⟨read, hread, rfl⟩ := List.mem_map.mp hitem
    obtain ⟨d, hd, rfl⟩ := List.mem_map.mp hread
    exact orderItem_of_validate (List.all_eq_true.mp hvalid.2 d hd)
      (List.all_eq_true.mp hdouble _ hread)
  | _ => simp [readArray?] at hitem

theorem Parsed.order_of_join {p : JoinPayload} (h : Parsed host e) (hp : e.payload = .join p)
    (hexact : exactAmounts e = true) :
    ∀ item ∈ (p.selectedItems.getD []).map cloneSelectedMenuItem, OrderItem item := by
  obtain ⟨d, hvalid, hread⟩ := h.payload
  have hkind : e.kind = .join := by rw [ParsedEscrowEvent.kind, hp, EscrowPayload.kind]
  rw [hkind] at hvalid hread
  obtain rfl : p = readJoin d := by simpa [readPayload, hp] using hread
  simp only [validatePayload, validateJoinPayload, Except.ok.injEq, Bool.and_eq_true] at hvalid
  have hitems : validateSelectedMenuItems (d.field "selectedItems") = true := by tauto
  rw [exactAmounts, hp] at hexact
  exact orderItem_of_read hitems hexact

variable {p : LockPayload}

theorem Parsed.order_of_lock (h : Parsed host e) (hp : e.payload = .lock p)
    (hexact : exactAmounts e = true) :
    ∀ item ∈ (p.selectedItems.getD []).map cloneSelectedMenuItem, OrderItem item := by
  obtain ⟨d, hvalid, hread⟩ := h.payload
  have hkind : e.kind = .lock := by rw [ParsedEscrowEvent.kind, hp, EscrowPayload.kind]
  rw [hkind] at hvalid hread
  obtain rfl : p = readLock d := by simpa [readPayload, hp] using hread
  simp only [validatePayload, validateLockPayload, Except.ok.injEq, Bool.and_eq_true] at hvalid
  have hitems : validateSelectedMenuItems (d.field "selectedItems") = true := by tauto
  rw [exactAmounts, hp] at hexact
  exact orderItem_of_read hitems hexact

structure MenuItemLaw (item : MenuItem) : Prop where
  amount : item.amountMsats ≠ .nan
  low : item.minAmountMsats ≠ some .nan
  high : item.maxAmountMsats ≠ some .nan
  cap : item.maxQuantity ≠ some .nan

theorem ne_nan_of_isPositiveNumber {v : JsValue} (h : absentOr isPositiveNumber v = true) :
    v.number? ≠ some .nan := by
  intro hnan
  cases v with
  | num n =>
    obtain rfl : n = .nan := by simpa [JsValue.number?] using hnan
    cases h
  | _ => cases hnan

theorem menuItemLaw_of_validate {d : JsValue} (h : validateMenuItem d = true) :
    MenuItemLaw (cloneMenuItem (readMenuItem d)) := by
  simp only [validateMenuItem, menuItemShape, Bool.and_eq_true] at h
  obtain ⟨hshape, hcap⟩ := h
  have hamount : isPositiveNumber (d.field "amountMsats") = true := by tauto
  have hlow : absentOr isPositiveNumber (d.field "minAmountMsats") = true := by tauto
  have hhigh : absentOr isPositiveNumber (d.field "maxAmountMsats") = true := by tauto
  obtain ⟨amount, hread, hfinite, -⟩ := number_of_isPositiveNumber hamount
  refine ⟨?_, ne_nan_of_isPositiveNumber hlow, ne_nan_of_isPositiveNumber hhigh,
    ne_nan_of_isPositiveNumber ?_⟩
  · change d.numberAt "amountMsats" ≠ .nan
    rw [JsValue.numberAt, hread]
    rintro rfl
    cases hfinite
  · simp only [absentOr, Bool.or_eq_true, Bool.and_eq_true] at hcap ⊢
    exact hcap.imp_right And.left

def MenuLaw (s : EscrowState) : Prop :=
  ∀ items, s.items = some items → ∀ item ∈ items, MenuItemLaw item

theorem MenuLaw.created (h : ParsedCreate host s) : MenuLaw s := by
  obtain ⟨e, p, hparsed, hp, -, hcreate⟩ := h
  obtain ⟨d, hvalid, hread⟩ := hparsed.payload
  have hkind : e.kind = .create := by rw [ParsedEscrowEvent.kind, hp, EscrowPayload.kind]
  rw [hkind] at hvalid hread
  obtain rfl : p = readCreate d := by simpa [readPayload, hp] using hread
  simp only [validatePayload, validateCreatePayload, Except.ok.injEq, Bool.and_eq_true] at hvalid
  have hmenu : validateMenuItems (d.field "items") = true := by tauto
  simp only [handleCreate, bind_eq_ok, pure_eq_ok] at hcreate
  obtain ⟨_, -, _, -, _, -, _, -, _, -, _, -, _, -, _, -, _, -, _, -, rfl⟩ := hcreate
  intro items hitems item hitem
  obtain ⟨read, hmenuRead, rfl⟩ := Option.map_eq_some_iff.mp hitems
  obtain ⟨raw, hraw, rfl⟩ := List.mem_map.mp hitem
  change readArray? readMenuItem (d.field "items") = some read at hmenuRead
  cases hv : d.field "items" with
  | arr entries =>
    rw [hv] at hmenu hmenuRead
    obtain rfl := Option.some.inj hmenuRead
    obtain ⟨entry, hentry, rfl⟩ := List.mem_map.mp hraw
    simp only [validateMenuItems, absentOr, JsValue.isUndefined, elements, Bool.false_or,
      Bool.and_eq_true] at hmenu
    exact menuItemLaw_of_validate (List.all_eq_true.mp hmenu.1.2 entry hentry)
  | _ =>
    rw [hv] at hmenuRead
    cases hmenuRead

/-! ### Orders in the state -/

def OrderLaw (s : EscrowState) : Prop :=
  ∀ role hold, s.joinHolds.get role = some hold → ∀ item ∈ hold.selectedItems.getD [],
    OrderItem item

theorem OrderLaw.of_eq (h : OrderLaw s) (hholds : s'.joinHolds = s.joinHolds) : OrderLaw s' := by
  intro role hold hhold
  rw [hholds] at hhold
  exact h role hold hhold

theorem OrderLaw.set {p : JoinPayload} {existing : Option JoinHold} {holds : PerRole (Option JoinHold)}
    (h : OrderLaw s) (hparsed : Parsed host e) (hexact : exactAmounts e = true)
    (payload : e.payload = .join p) {role : Role} {hold : Option JoinHold}
    (hhold : hold = none ∨ hold = some (joinHold s e p existing))
    (hholds : holds = s.joinHolds.set role hold) (hs : s'.joinHolds = holds) : OrderLaw s' := by
  intro other found hfound item hitem
  rw [hs, hholds] at hfound
  by_cases hrole : other = role
  · subst hrole
    rw [PerRole.get_set_same] at hfound
    rcases hhold with rfl | rfl
    · cases hfound
    · obtain rfl := Option.some.inj hfound
      refine hparsed.order_of_join payload hexact item ?_
      cases hitems : p.selectedItems with
      | none => simp [joinHold, hitems] at hitem
      | some items =>
        by_cases hempty : items.isEmpty = true
        · simp [joinHold, hitems, Option.filter, hempty] at hitem
        · simpa [joinHold, hitems, Option.filter, hempty] using hitem
  · rw [PerRole.get_set_of_ne _ _ hrole] at hfound
    exact h other found hfound item hitem

theorem OrderLaw.handled (h : OrderLaw s) (hparsed : Parsed host e) (hexact : exactAmounts e = true)
    (hstep : Handled host s e s') : OrderLaw s' := by
  cases hstep
  case planRepeated => exact h
  case orderJoined payload _ _ _ _ clone =>
    exact h.set hparsed hexact payload (Or.inr rfl) (by rw [clone.joinHolds]) rfl
  case seatJoined p next payload _ _ _ _ _ _ clone =>
    refine h.set hparsed hexact payload (?_ : _ ∨ _ = some (joinHold s e p none))
      (by rw [clone.joinHolds]) rfl
    split_ifs
    · exact Or.inr rfl
    · exact Or.inl rfl
  case voted clone count =>
    obtain ⟨votes, acting, rfl⟩ := countVote_eq_ok count
    exact h.of_eq clone.joinHolds
  case stalled clone => exact h.of_eq clone.joinHolds
  all_goals
    rename_i clone
    exact h.of_eq clone.joinHolds

theorem OrderLaw.step (h : OrderLaw s) (hparsed : Parsed host e) (hexact : exactAmounts e = true)
    (hstep : Stepped host s e s') : OrderLaw s' := by
  have hexpired {next : EscrowState} (hexpires : Expires s e next) : OrderLaw next := by
    obtain ⟨copy, clone, rfl⟩ := hexpires.eq
    exact h.of_eq clone.joinHolds
  cases hstep with
  | echoed => exact h
  | premium _ _ clone => exact h.of_eq clone.joinHolds
  | settlement _ _ clone => exact h.of_eq clone.joinHolds
  | expired _ expires => exact hexpired expires
  | handled _ _ _ _ handled => exact h.handled hparsed hexact handled
  | lateHandled _ _ expires handled => exact (hexpired expires).handled hparsed hexact handled

def PublishedRuns (host : Host) : EscrowState → Prop :=
  Run (applyToState host) (ParsedCreate host) fun _ e => Parsed host e ∧ exactAmounts e = true

theorem PublishedRuns.laws (h : PublishedRuns host s) : MenuLaw s ∧ OrderLaw s := by
  refine Run.invariant (I := fun s => MenuLaw s ∧ OrderLaw s) (fun s hs => ⟨MenuLaw.created hs, ?_⟩)
    (fun s e s' hC hs hstep => ⟨?_, ?_⟩) h
  · obtain ⟨e, p, -, hp, -, hcreate⟩ := hs
    intro role hold hhold
    rw [(handleCreate_newborn hp hcreate).joinHolds] at hhold
    cases role <;> cases hhold
  · intro items hitems
    have hterms := congrArg TradeTerms.items (applyToState_stepped hstep).terms
    exact hs.1 items (hterms ▸ hitems)
  · exact hs.2.step hC.1 hC.2 (applyToState_stepped hstep)

/-! ### The limits of the menu -/

/-- A selection that respects its item: the item's label, a whole quantity within its cap, and its
amount, or one within its bracket. -/
def WithinMenu (items : List MenuItem) (selected : SelectedMenuItem) : Prop :=
  ∃ item ∈ items, item.id = selected.itemId ∧ item.label = selected.label ∧
    selected.quantity.isInteger = true ∧ 1 ≤ selected.quantity ∧
    (∀ cap, item.maxQuantity = some cap → selected.quantity ≤ cap) ∧
    if isAmountBracket item then
      selected.quantity = 1 ∧ item.minAmountMsats.getD item.amountMsats ≤ selected.amountMsats ∧
        selected.amountMsats ≤ item.maxAmountMsats.getD item.amountMsats
    else selected.amountMsats = item.amountMsats

theorem ne_nan_of_isFinite {a : JsNumber} (h : a.isFinite = true) : a ≠ .nan := by
  rintro rfl
  cases h

theorem getD_ne_nan {a : Option JsNumber} {b : JsNumber} (ha : a ≠ some .nan) (hb : b ≠ .nan) :
    a.getD b ≠ .nan := by
  cases a with
  | none => exact hb
  | some n =>
    rintro rfl
    exact ha rfl

theorem bracket_of_bracketError {item : MenuItem} {selected : SelectedMenuItem}
    (hitem : MenuItemLaw item) (hselected : OrderItem selected)
    (h : bracketError item selected = none) :
    selected.quantity = 1 ∧ item.minAmountMsats.getD item.amountMsats ≤ selected.amountMsats ∧
      selected.amountMsats ≤ item.maxAmountMsats.getD item.amountMsats := by
  unfold bracketError at h
  split_ifs at h with hquantity hrange
  obtain ⟨hlow, hhigh⟩ := not_or.mp hrange
  have hamount := ne_nan_of_isFinite hselected.amount.1
  exact ⟨JsNumber.eq_of_strictEq (by simpa using hquantity),
    JsNumber.le_of_not_lt hamount (getD_ne_nan hitem.low hitem.amount) hlow,
    JsNumber.le_of_not_lt (getD_ne_nan hitem.high hitem.amount) hamount hhigh⟩

variable {items : List MenuItem}

theorem withinMenu_of_selectedItemError {seen : List String}
    {selected : SelectedMenuItem} (hitems : ∀ item ∈ items, MenuItemLaw item)
    (hselected : OrderItem selected) (h : selectedItemError items seen selected = none) :
    WithinMenu items selected := by
  unfold selectedItemError at h
  split at h
  · cases h
  · rename_i item hfind
    have hmem : item ∈ items := List.mem_reverse.mp (List.mem_of_find?_eq_some hfind)
    have hid : item.id = selected.itemId := by simpa using List.find?_some hfind
    cases hcap : item.maxQuantity.filter fun cap => decide (cap < selected.quantity) with
    | some cap =>
      rw [hcap] at h
      split_ifs at h
    | none =>
      rw [hcap] at h
      have hnan := ne_nan_of_isFinite hselected.quantity.1
      have hcapped (cap : JsNumber) (hmax : item.maxQuantity = some cap) :
          selected.quantity ≤ cap := by
        refine JsNumber.le_of_not_lt ?_ hnan fun hlt => ?_
        · rintro rfl
          exact (hitems item hmem).cap hmax
        · simp [hmax, Option.filter, hlt] at hcap
      have hwhole (hquantity : ¬((!selected.quantity.isInteger) = true ∨ selected.quantity < 1)) :
          selected.quantity.isInteger = true ∧ 1 ≤ selected.quantity :=
        ⟨by simpa using (not_or.mp hquantity).1,
          JsNumber.le_of_not_lt hnan (JsNumber.ofInt_ne_nan 1) (not_or.mp hquantity).2⟩
      split_ifs at h with hseen hlabel hquantity hbracket hamount
      · obtain ⟨hinteger, hone⟩ := hwhole hquantity
        refine ⟨item, hmem, hid, not_not.mp hlabel, hinteger, hone, hcapped, ?_⟩
        rw [if_pos hbracket]
        exact bracket_of_bracketError (hitems item hmem) hselected h
      · obtain ⟨hinteger, hone⟩ := hwhole hquantity
        refine ⟨item, hmem, hid, not_not.mp hlabel, hinteger, hone, hcapped, ?_⟩
        rw [if_neg hbracket]
        exact (JsNumber.eq_of_strictEq (by simpa using hamount)).symm

theorem withinMenu_of_selectedItemsError
    (hitems : ∀ item ∈ items, MenuItemLaw item) {basket : List SelectedMenuItem}
    {seen : List String} (hbasket : ∀ selected ∈ basket, OrderItem selected)
    (h : selectedItemsError items basket seen = none) :
    ∀ selected ∈ basket, WithinMenu items selected := by
  induction basket generalizing seen with
  | nil => simp
  | cons head rest ih =>
    rw [selectedItemsError, Option.or_eq_none_iff] at h
    intro selected hmem
    rcases List.mem_cons.mp hmem with rfl | hrest
    · exact withinMenu_of_selectedItemError hitems (hbasket selected (List.mem_cons_self ..)) h.1
    · exact ih (fun other hother => hbasket other (List.mem_cons_of_mem _ hother)) h.2 selected hrest

/-! ### An accepted LOCK -/

def LockPayload.basket (p : LockPayload) : List SelectedMenuItem :=
  (p.selectedItems.getD []).map cloneSelectedMenuItem

def finalizedOrder (s : EscrowState) (e : ParsedEscrowEvent) : Option (List SelectedMenuItem) :=
  ((s.joinHolds.get (menuSelectorRoleFor s.category)).filter fun hold =>
    holdsFinalOrder hold e.timestamp).map fun hold => hold.selectedItems.getD []

/-- Whether the trade is funded by another party than the one who orders. -/
def fundedByOther (s : EscrowState) : Bool :=
  (expectedLocker s).any fun expected => expected ≠ menuSelectorRoleFor s.category

theorem Handled.order_of_lock (h : Handled host s e s')
    (hp : e.payload = .lock p) : lockOrderGate s e p = .ok s'.amountMsats := by
  cases h
  case locked p' _ _ _ _ _ _ payload _ _ _ _ _ _ _ order _ _ _ _ =>
    obtain rfl : p = p' := by simpa [hp] using payload
    exact order
  all_goals simp_all

theorem order_of_lock (h : applyToState host s e = .ok s')
    (hp : e.payload = .lock p) (hopen : s.status = .created) (hlocked : s'.status = .locked) :
    lockOrderGate s e p = .ok s'.amountMsats := by
  have hkind : e.kind = .lock := by rw [ParsedEscrowEvent.kind, hp, EscrowPayload.kind]
  cases applyToState_stepped h with
  | echoed => simp [hopen] at hlocked
  | premium payload => simp [hp] at payload
  | settlement payload => simp [hp] at payload
  | expired _ expires => simp [expires.status_eq] at hlocked
  | handled _ _ _ _ handled => exact handled.order_of_lock hp
  | lateHandled _ kind => simp [hkind] at kind

theorem lockOrderGate_menu {amount : JsNumber}
    (h : lockOrderGate s e p = .ok amount) (hitems : s.items = some items) (hne : items ≠ []) :
    selectedItemsError items p.basket [] = none ∧ finalizedOrderGate s e p.basket = .ok () ∧
      amount = selectedItemsTotalMsats p.basket := by
  unfold lockOrderGate at h
  dsimp only at h
  rw [hitems] at h
  cases items with
  | nil => exact absurd rfl hne
  | cons item rest =>
    simp only [bind_eq_ok, pure_eq_ok, guardErr_eq_ok, guardProblem_eq_ok] at h
    obtain ⟨_, -, _, hmenu, _, hfinal, _, -, rfl⟩ := h
    exact ⟨hmenu, hfinal, rfl⟩

theorem key_of_finalizedOrderGate {basket : List SelectedMenuItem} (hother : fundedByOther s = true)
    (h : finalizedOrderGate s e basket = .ok ()) :
    ∃ order, finalizedOrder s e = some order ∧
      selectedItemsKey order = selectedItemsKey basket := by
  unfold fundedByOther at hother
  unfold finalizedOrderGate at h
  dsimp only at h
  rw [if_pos hother] at h
  unfold finalizedOrder
  split at h
  · cases h
  · rename_i hold hhold
    rw [guardErr_eq_ok] at h
    exact ⟨_, by rw [hhold]; rfl, not_not.mp h⟩

theorem OrderLaw.finalizedOrder (h : OrderLaw s) {order : List SelectedMenuItem}
    (hfinal : finalizedOrder s e = some order) : ∀ item ∈ order, OrderItem item := by
  obtain ⟨hold, hhold, rfl⟩ := Option.map_eq_some_iff.mp hfinal
  exact h _ hold (Option.filter_eq_some_iff.mp hhold).1

structure BasketMatches (s : EscrowState) (e : ParsedEscrowEvent) (p : LockPayload)
    (items : List MenuItem) (s' : EscrowState) : Prop where
  order : ∃ order, finalizedOrder s e = some order ∧ order.Perm p.basket
  total : s'.amountMsats = selectedItemsTotalMsats p.basket
  menu : ∀ selected ∈ p.basket, WithinMenu items selected

/-- On a menu trade whose funder is not the one who orders, an accepted LOCK funds what its basket
costs, within the limits of the menu; and its basket is the finalized order exactly when the keys of
the two are cut in the same places. -/
theorem basket_matches (host : Host) (s s' : EscrowState) (e : ParsedEscrowEvent) (p : LockPayload)
    (items : List MenuItem) (hs : PublishedRuns host s) (he : Parsed host e)
    (hexact : exactAmounts e = true) (hp : e.payload = .lock p) (hitems : s.items = some items)
    (hne : items ≠ []) (hother : fundedByOther s = true) (h : applyToState host s e = .ok s')
    (hopen : s.status = .created) (hlocked : s'.status = .locked) :
    (BasketMatches s e p items s' ↔
      ∃ order, finalizedOrder s e = some order ∧ SameCuts order p.basket) ∧
    s'.amountMsats = selectedItemsTotalMsats p.basket ∧
    ∀ selected ∈ p.basket, WithinMenu items selected := by
  obtain ⟨hmenu, hfinal, htotal⟩ := lockOrderGate_menu (order_of_lock h hp hopen hlocked) hitems hne
  obtain ⟨order, horder, hkey⟩ := key_of_finalizedOrderGate hother hfinal
  have hbasket := he.order_of_lock hp hexact
  have hwithin := withinMenu_of_selectedItemsError (hs.laws.1 items hitems) hbasket hmenu
  have hiff := perm_iff_sameCuts (hs.laws.2.finalizedOrder horder) hbasket hkey
  refine ⟨⟨fun hmatches => ?_, fun hcuts => ?_⟩, htotal, hwithin⟩
  · obtain ⟨order', horder', hperm⟩ := hmatches.order
    obtain rfl : order = order' := by simpa [horder] using horder'
    exact ⟨order, horder, hiff.mp hperm⟩
  · obtain ⟨order', horder', hcuts⟩ := hcuts
    obtain rfl : order = order' := by simpa [horder] using horder'
    exact ⟨⟨order, horder, hiff.mpr hcuts⟩, htotal, hwithin⟩

def plainItem (id : String) : SelectedMenuItem := ⟨id, "coins", 400000, 1, none, none⟩

def itemEntry (idKey id label : String) (amount : JsNumber) (rest : List (String × JsValue)) :
    JsValue :=
  .obj ([(idKey, .str id), ("label", .str label), ("amountMsats", .num amount)] ++ rest)

/-- The id of an item that prints, with its label, as two items. -/
def splicedId : String := "a:x:400000:1::|b"

def splicedContent : JsValue := .obj [
  ("type", .str "escrow:create"),
  ("description", .str "coins"),
  ("amountMsats", .num 1000000),
  ("category", .str "p2p-trade"),
  ("mintUrl", .str "https://mint"),
  ("platformFeeBps", .num 0),
  ("platformFeePubkey", .str (hexKey 'd')),
  ("expirySeconds", .num 3600),
  ("communityArbiters", .arr [.str (hexKey 'c')]),
  ("items", .arr [itemEntry "id" "a" "x" 400000 [], itemEntry "id" "b" "y" 600000 [],
    itemEntry "id" splicedId "y" 600000 []]),
  ("createdAt", .num 1800000000)]

def twoItems : List JsValue :=
  [itemEntry "itemId" "a" "x" 400000 [("quantity", .num 1)],
    itemEntry "itemId" "b" "y" 600000 [("quantity", .num 1)]]

def orderContent : JsValue := .obj [
  ("type", .str "escrow:join"),
  ("role", .str "buyer"),
  ("joinedAt", .num 1800000010),
  ("orderFinalizedAt", .num 1800000010),
  ("selectedItems", .arr twoItems)]

def basketContent (amount : JsNumber) (basket : List JsValue) : JsValue := .obj [
  ("type", .str "escrow:lock"),
  ("notesHash", .str "notes"),
  ("shares", .arr ([0, 1, 2].map fun i => .obj [("shareIndex", .num (.ofInt i))])),
  ("sellerReceivesMsats", .num amount),
  ("arbiterFeeMsats", .num 0),
  ("platformFeeMsats", .num 0),
  ("buyerPubkey", .str (hexKey 'b')),
  ("arbiterPubkey", .str (hexKey 'c')),
  ("selectedItems", .arr basket),
  ("lockedAt", .num 1800000020)]

def rawSample (id author : Char) (time : ℕ) : NostrEvent where
  id := hexKey id
  pubkey := hexKey author
  createdAt := .ofInt time
  tags := [["d", "sm_sample"]]
  id_ne := hexKey_ne id
  pubkey_ne := hexKey_ne author
  createdAt_ne := sampleTime_ne time

def basketRun (lock : JsValue)
    (check : List SelectedMenuItem → LockPayload → EscrowState → Bool) : Bool :=
  match parseEscrowEvent silentHost (rawSample '0' 'a' 1800000000) EscrowEventKind.create.number
      (.ok splicedContent) {},
    parseEscrowEvent silentHost (rawSample '1' 'b' 1800000010) EscrowEventKind.join.number
      (.ok orderContent) {},
    parseEscrowEvent silentHost (rawSample '2' 'a' 1800000020) EscrowEventKind.lock.number
      (.ok lock) {} with
  | .ok create, .ok join, .ok e =>
    match create.payload, e.payload, liveTrade silentHost create [join] with
    | .create terms, .lock p, some s =>
      match applyToState silentHost s e, finalizedOrder s e with
      | .ok s', some order => terms.amountMsats.isDouble && exactAmounts join && exactAmounts e
          && s.items.any (fun items => items ≠ []) && fundedByOther s && s.status = .created
          && s'.status = .locked && check order p s'
      | _, _ => false
    | _, _, _ => false
  | _, _, _ => false

structure BasketLock (s : EscrowState) (e : ParsedEscrowEvent) (p : LockPayload)
    (items : List MenuItem) (s' : EscrowState) : Prop where
  run : PublishedRuns silentHost s
  parsed : Parsed silentHost e
  exact : exactAmounts e = true
  payload : e.payload = .lock p
  menu : s.items = some items
  nonempty : items ≠ []
  other : fundedByOther s = true
  step : applyToState silentHost s e = .ok s'
  opened : s.status = .created
  locked : s'.status = .locked

theorem exists_of_basketRun {lock : JsValue}
    {check : List SelectedMenuItem → LockPayload → EscrowState → Bool}
    (h : basketRun lock check = true) : ∃ s e p items s' order, BasketLock s e p items s' ∧
      finalizedOrder s e = some order ∧ check order p s' = true := by
  unfold basketRun at h
  split at h
  · rename_i create join e hcreate hjoin hlock
    split at h
    · rename_i terms p s hterms hp hlive
      split at h
      · rename_i s' order hstep horder
        simp only [Bool.and_eq_true, decide_eq_true_eq] at h
        obtain ⟨⟨⟨⟨⟨⟨⟨hdouble, hexactJoin⟩, hexact⟩, hmenu⟩, hother⟩, hopen⟩, hlocked⟩, hcheck⟩ := h
        obtain ⟨items, hitems, hne⟩ := (Option.any_eq_true _ _).mp hmenu
        have hparsed : Parsed silentHost join := ⟨_, _, _, _, hjoin⟩
        have hrun : PublishedRuns silentHost s := by
          unfold liveTrade at hlive
          split at hlive
          · rename_i s₀ hnew
            obtain rfl := Option.some.inj hlive
            have hnew : handleCreate silentHost create terms = .ok s₀ := by
              simpa [applyEvent, hterms] using hnew
            refine Run.fold (.start ⟨create, terms, ⟨_, _, _, _, hcreate⟩, hterms, hdouble, hnew⟩) ?_
            intro _ e he
            rw [List.mem_singleton] at he
            exact he ▸ ⟨hparsed, hexactJoin⟩
          · cases hlive
        exact ⟨s, e, p, items, s', order, ⟨hrun, ⟨_, _, _, _, hlock⟩, hexact, hp, hitems,
          of_decide_eq_true hne, hother, hstep, hopen, hlocked⟩, horder, hcheck⟩
      · cases h
    · cases h
  · cases h

/-- The seller locks one item in the place of the two that the buyer ordered, at the price of one
of them: their keys are the same text. -/
theorem spliced_basket_accepted : ∃ s e p items s' order, BasketLock s e p items s' ∧
    finalizedOrder s e = some order ∧ ¬order.Perm p.basket ∧
      selectedItemsTotalMsats order = 1000000 ∧ s'.amountMsats = 600000 := by
  have hrun : basketRun (basketContent 600000
      [itemEntry "itemId" splicedId "y" 600000 [("quantity", .num 1)]]) (fun order p s' =>
        order.length = 2 && p.basket.length = 1 && selectedItemsTotalMsats order = 1000000
          && s'.amountMsats = 600000) = true := by
    decide +kernel
  obtain ⟨s, e, p, items, s', order, hlock, horder, hcheck⟩ := exists_of_basketRun hrun
  simp only [Bool.and_eq_true, decide_eq_true_eq] at hcheck
  obtain ⟨⟨⟨htwo, hone⟩, htotal⟩, hamount⟩ := hcheck
  refine ⟨s, e, p, items, s', order, hlock, horder, fun hperm => ?_, htotal, hamount⟩
  have hlength := hperm.length_eq
  rw [htwo, hone] at hlength
  cases hlength

/-- The seller repeats the order, its items the other way round. -/
theorem basket_matches_sample : ∃ s e p items s', BasketLock s e p items s' ∧
    BasketMatches s e p items s' := by
  have hrun : basketRun (basketContent 1000000 twoItems.reverse) (fun order p _ =>
      p.basket = order.reverse) = true := by
    decide +kernel
  obtain ⟨s, e, p, items, s', order, hlock, horder, hcheck⟩ := exists_of_basketRun hrun
  have hreverse : p.basket = order.reverse := of_decide_eq_true hcheck
  have hperm : order.Perm p.basket := hreverse ▸ (List.reverse_perm order).symm
  exact ⟨s, e, p, items, s', hlock, (basket_matches silentHost s s' e p items hlock.run hlock.parsed
    hlock.exact hlock.payload hlock.menu hlock.nonempty hlock.other hlock.step hlock.opened
    hlock.locked).1.mpr ⟨order, horder, .of_perm hperm⟩⟩

end ChamaEscrow
