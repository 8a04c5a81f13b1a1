import Pluribus.Core.Delivery
import Pluribus.Lib.Lines

namespace Pluribus.Telegram

open Lib Pluribus.Core List Option

def boundary : List Char := "pluribus-telegram-boundary-7d9f1a".toList

/-- A file with the bytes its blob is read as. -/
structure File where
  field : List Char
  fileName : List Char
  mediaType : List Char
  content : Bytes

def safeFileName (name : List Char) : List Char :=
  let value := (name.filter fun c => c.isAlphanum || c = '.' || c = '_' || c = '-').take 120
  if value.isEmpty then "file".toList else value

def opening : Bytes := Utf8.encode (['-', '-'] ++ boundary)

def disposition (name : List Char) : List Char := "Content-Disposition: form-data; name=\"".toList ++ name ++ ['"']

def fieldPart (field : List Char × List Char) : Bytes :=
  Utf8.encode (disposition field.1) ++ crlf ++ crlf ++ Utf8.encode field.2

def filePart (file : File) : Bytes :=
  Utf8.encode (disposition file.field ++ "; filename=\"".toList ++ safeFileName file.fileName ++ ['"']) ++ crlf ++
    Utf8.encode ("Content-Type: ".toList ++ file.mediaType) ++ crlf ++ crlf ++ file.content

def written (parts : List Bytes) : Bytes :=
  parts.flatMap (fun part => opening ++ crlf ++ part ++ crlf) ++ (opening ++ [45, 45] ++ crlf)

def body (fields : List (List Char × List Char)) (files : List File) : Bytes :=
  written (fields.map fieldPart ++ files.map filePart)

section Results

/-- A part is found before the next delimiter and comes apart where its header ends. -/
structure Reads (part : Bytes) (read : List Bytes × Bytes) : Prop where
  whole : cut (crlf ++ opening) part = none
  apart : (cut (crlf ++ crlf) part).map (fun r => (wireLines r.1, r.2)) = some read

variable {first second content : Bytes}

end Results

end Pluribus.Telegram
