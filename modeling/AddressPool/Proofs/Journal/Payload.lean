import AddressPool.Journal.Payload

/-! Each reader of a journal body takes off what its writer put in front and leaves the
rest, so a body read back is the body written, its time kept modulo eight bytes. It takes
nothing else: what it read is spelled in front as its writer spells it. -/
namespace AddressPool.Journal
open Bytes

theorem splitAppend (front rest : Bytes) : split front.length (front ++ rest) = some (front, rest) :=
  splitExact.mpr ⟨rfl, rfl⟩

theorem readNumberWritten (width n : Nat) (rest : Bytes) :
    readNumber width (littleEndian width n ++ rest) = .ok (n % space width, rest) := by
  have cut : split width (littleEndian width n ++ rest) = some (littleEndian width n, rest) :=
    splitExact.mpr ⟨rfl, littleEndianLength width n⟩
  simp only [readNumber, cut, ofLittleEndianWritten]

theorem readNumberExact {width n : Nat} (small : n < space width) (rest : Bytes) :
    readNumber width (littleEndian width n ++ rest) = .ok (n, rest) := by
  rw [readNumberWritten, Nat.mod_eq_of_lt small]

theorem readTextWritten {text : String} (short : (Utf8.encode text).length < space 8)
    (rest : Bytes) : readText (writeText text ++ rest) = .ok (text, rest) := by
  simp only [readText, writeText, List.append_assoc, readNumberExact short, bind,
    Except.bind, splitAppend, Utf8.decodeEncode]

theorem readAddressWritten (a : Address) (rest : Bytes) :
    readAddress (writeAddress a ++ rest) = .ok (a, rest) := by
  have cut : split a.family.width (a.octets ++ rest) = some (a.octets, rest) :=
    splitExact.mpr ⟨rfl, a.octetsLength⟩
  have read : readOctets a.family (a.octets ++ rest) = .ok (a, rest) := by
    simp only [readOctets, cut, Address.ofOctetsOctets]
  simp only [readAddress, writeAddress, List.append_assoc]
  cases family : a.family with
  | v4 =>
    rw [family] at read
    rw [addressKind, readNumberExact (by decide)]
    exact read
  | v6 =>
    rw [family] at read
    rw [addressKind, readNumberExact (by decide)]
    exact read

theorem readAddressesFromWritten (found addresses : List Address) (rest : Bytes) :
    readAddressesFrom found addresses.length (addresses.flatMap writeAddress ++ rest) =
      .ok (found.reverse ++ addresses, rest) := by
  induction addresses generalizing found with
  | nil => simp [readAddressesFrom]
  | cons a others ih =>
    simp only [List.length_cons, readAddressesFrom, List.flatMap_cons, List.append_assoc,
      readAddressWritten]
    rw [ih (a :: found)]
    simp

theorem readAddressesWritten {addresses : List Address} (few : addresses.length < space 8)
    (rest : Bytes) : readAddresses (writeAddresses addresses ++ rest) = .ok (addresses, rest) := by
  simp only [readAddresses, writeAddresses, List.append_assoc, readNumberExact few, bind, Except.bind,
    readAddressesFromWritten, List.reverse_nil, List.nil_append]

theorem addressesShort (addresses : List Address) :
    addresses.length ≤ (addresses.flatMap writeAddress).length := by
  induction addresses with
  | nil => exact Nat.zero_le _
  | cons a rest ih =>
    simp only [List.flatMap_cons, List.length_cons, List.length_append, writeAddress,
      littleEndianLength]
    omega

theorem readOperationWritten {operation : Operation}
    (short : (writeOperation operation).length < space 8) (rest : Bytes) :
    readOperation (writeOperation operation ++ rest) = .ok (operation, rest) := by
  cases operation with
  | reserve a owner =>
    have text : (Utf8.encode owner).length < space 8 := by
      simp only [writeOperation, writeText, List.length_append] at short
      omega
    have kind : 0 < space 4 := by decide
    simp only [readOperation, writeOperation, List.append_assoc, readNumberExact kind,
      readAddressWritten, readTextWritten text, bind, Except.bind, pure, Except.pure]
  | release owner addresses =>
    have count := addressesShort addresses
    simp only [writeOperation, writeText, writeAddresses, List.length_append] at short
    have text : (Utf8.encode owner).length < space 8 := by omega
    have few : addresses.length < space 8 := by omega
    have kind : 1 < space 4 := by decide
    simp only [readOperation, writeOperation, List.append_assoc, readNumberExact kind,
      readTextWritten text, readAddressesWritten few, bind, Except.bind, pure, Except.pure]

theorem readBodyWritten {body : Body} (short : (writeOperation body.operation).length < space 8)
    (rest : Bytes) :
    Body.read (body.write ++ rest) = .ok (⟨body.operation, body.time % space 8⟩, rest) := by
  simp only [Body.read, Body.write, List.append_assoc, readOperationWritten short, readNumberWritten,
    bind, Except.bind, pure, Except.pure]

section Takes

variable {bytes rest : Bytes}

theorem readNumberTakes {width n : Nat} (read : readNumber width bytes = .ok (n, rest)) :
    bytes = littleEndian width n ++ rest ∧ n < space width := by
  unfold readNumber at read
  split at read
  · next digits _ cut =>
    cases read
    obtain ⟨whole, rfl⟩ := splitExact.mp cut
    rw [littleEndianRead]
    exact ⟨whole, ofLittleEndianBound digits⟩
  · contradiction

theorem readTextTakes {text : String} (read : readText bytes = .ok (text, rest)) :
    bytes = writeText text ++ rest := by
  simp only [readText, bind, Except.bind] at read
  split at read
  · contradiction
  next number =>
  obtain ⟨rfl, _⟩ := readNumberTakes number
  split at read
  · contradiction
  next cut =>
  obtain ⟨whole, full⟩ := splitExact.mp cut
  split at read
  · next decoded =>
    cases read
    rw [writeText, Utf8.encodeOfDecode decoded, full, whole, List.append_assoc]
  · contradiction

theorem readAddressTakes {a : Address} (read : readAddress bytes = .ok (a, rest)) :
    bytes = writeAddress a ++ rest := by
  have octets {family : Family} {more : Bytes} (read : readOctets family more = .ok (a, rest)) :
      a.family = family ∧ more = a.octets ++ rest := by
    unfold readOctets at read
    split at read
    · next cut =>
      obtain ⟨rfl, full⟩ := splitExact.mp cut
      cases read
      exact ⟨rfl, by rw [Address.octetsOfOctets full]⟩
    · contradiction
  simp only [readAddress, bind, Except.bind] at read
  split at read
  · contradiction
  next number =>
  obtain ⟨rfl, _⟩ := readNumberTakes number
  split at read
  · next kind =>
    obtain ⟨family, whole⟩ := octets read
    rw [writeAddress, family, kind, whole, List.append_assoc, addressKind]
  · next kind =>
    obtain ⟨family, whole⟩ := octets read
    rw [writeAddress, family, kind, whole, List.append_assoc, addressKind]
  · contradiction

theorem readAddressesFromTakes {found addresses : List Address} {count : Nat}
    (read : readAddressesFrom found count bytes = .ok (addresses, rest)) :
    ∃ more, addresses = found.reverse ++ more ∧ more.length = count ∧
      bytes = more.flatMap writeAddress ++ rest := by
  induction count generalizing found bytes with
  | zero =>
    cases read
    exact ⟨[], by simp, rfl, rfl⟩
  | succ count ih =>
    simp only [readAddressesFrom] at read
    split at read
    · next a _ head =>
      obtain ⟨more, listed, length, whole⟩ := ih read
      refine ⟨a :: more, by simp [listed], by simp [length], ?_⟩
      rw [readAddressTakes head, whole, List.flatMap_cons, List.append_assoc]
    · contradiction

theorem readAddressesTakes {addresses : List Address}
    (read : readAddresses bytes = .ok (addresses, rest)) :
    bytes = writeAddresses addresses ++ rest := by
  simp only [readAddresses, bind, Except.bind] at read
  split at read
  · contradiction
  next number =>
  obtain ⟨rfl, _⟩ := readNumberTakes number
  obtain ⟨more, rfl, length, whole⟩ := readAddressesFromTakes read
  rw [writeAddresses, length, whole, List.append_assoc]

theorem readOperationTakes {operation : Operation}
    (read : readOperation bytes = .ok (operation, rest)) :
    bytes = writeOperation operation ++ rest := by
  simp only [readOperation, bind, Except.bind, pure, Except.pure] at read
  split at read
  · contradiction
  next number =>
  obtain ⟨rfl, _⟩ := readNumberTakes number
  split at read
  · next kind =>
    split at read
    · contradiction
    next address =>
    split at read
    · contradiction
    next owner =>
    cases read
    rw [readAddressTakes address, readTextTakes owner, kind, writeOperation]
    simp only [List.append_assoc]
  · next kind =>
    split at read
    · contradiction
    next owner =>
    split at read
    · contradiction
    next addresses =>
    cases read
    rw [readTextTakes owner, readAddressesTakes addresses, kind, writeOperation]
    simp only [List.append_assoc]
  · contradiction

theorem readBodyTakes {body : Body} (read : Body.read bytes = .ok (body, rest)) :
    bytes = body.write ++ rest ∧ body.time < space 8 := by
  simp only [Body.read, bind, Except.bind, pure, Except.pure] at read
  split at read
  · contradiction
  next operation =>
  split at read
  · contradiction
  next number =>
  cases read
  obtain ⟨time, small⟩ := readNumberTakes number
  exact ⟨by rw [readOperationTakes operation, time, Body.write, List.append_assoc], small⟩

end Takes

end AddressPool.Journal
