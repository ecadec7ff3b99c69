import Mathlib.Data.List.Basic

/-!
# The fonts of the OLED driver

`F6x8` has one row for each character from 32 on, and a last one of horizontal
lines.  `F8X16` has 16 bytes for each character, the upper half of its cell in
front of the lower one.  A byte is a column of eight pixels.

Source: `oled_demo/oled_fonts.h`.
-/

namespace WifiIot.Oled

def columns6x8 : List (List Nat) := [
  [0x00, 0x00, 0x00, 0x00, 0x00, 0x00],
  [0x00, 0x00, 0x00, 0x2F, 0x00, 0x00],
  [0x00, 0x00, 0x07, 0x00, 0x07, 0x00],
  [0x00, 0x14, 0x7F, 0x14, 0x7F, 0x14],
  [0x00, 0x24, 0x2A, 0x7F, 0x2A, 0x12],
  [0x00, 0x62, 0x64, 0x08, 0x13, 0x23],
  [0x00, 0x36, 0x49, 0x55, 0x22, 0x50],
  [0x00, 0x00, 0x05, 0x03, 0x00, 0x00],
  [0x00, 0x00, 0x1C, 0x22, 0x41, 0x00],
  [0x00, 0x00, 0x41, 0x22, 0x1C, 0x00],
  [0x00, 0x14, 0x08, 0x3E, 0x08, 0x14],
  [0x00, 0x08, 0x08, 0x3E, 0x08, 0x08],
  [0x00, 0x00, 0x00, 0xA0, 0x60, 0x00],
  [0x00, 0x08, 0x08, 0x08, 0x08, 0x08],
  [0x00, 0x00, 0x60, 0x60, 0x00, 0x00],
  [0x00, 0x20, 0x10, 0x08, 0x04, 0x02],
  [0x00, 0x3E, 0x51, 0x49, 0x45, 0x3E],
  [0x00, 0x00, 0x42, 0x7F, 0x40, 0x00],
  [0x00, 0x42, 0x61, 0x51, 0x49, 0x46],
  [0x00, 0x21, 0x41, 0x45, 0x4B, 0x31],
  [0x00, 0x18, 0x14, 0x12, 0x7F, 0x10],
  [0x00, 0x27, 0x45, 0x45, 0x45, 0x39],
  [0x00, 0x3C, 0x4A, 0x49, 0x49, 0x30],
  [0x00, 0x01, 0x71, 0x09, 0x05, 0x03],
  [0x00, 0x36, 0x49, 0x49, 0x49, 0x36],
  [0x00, 0x06, 0x49, 0x49, 0x29, 0x1E],
  [0x00, 0x00, 0x36, 0x36, 0x00, 0x00],
  [0x00, 0x00, 0x56, 0x36, 0x00, 0x00],
  [0x00, 0x08, 0x14, 0x22, 0x41, 0x00],
  [0x00, 0x14, 0x14, 0x14, 0x14, 0x14],
  [0x00, 0x00, 0x41, 0x22, 0x14, 0x08],
  [0x00, 0x02, 0x01, 0x51, 0x09, 0x06],
  [0x00, 0x32, 0x49, 0x59, 0x51, 0x3E],
  [0x00, 0x7C, 0x12, 0x11, 0x12, 0x7C],
  [0x00, 0x7F, 0x49, 0x49, 0x49, 0x36],
  [0x00, 0x3E, 0x41, 0x41, 0x41, 0x22],
  [0x00, 0x7F, 0x41, 0x41, 0x22, 0x1C],
  [0x00, 0x7F, 0x49, 0x49, 0x49, 0x41],
  [0x00, 0x7F, 0x09, 0x09, 0x09, 0x01],
  [0x00, 0x3E, 0x41, 0x49, 0x49, 0x7A],
  [0x00, 0x7F, 0x08, 0x08, 0x08, 0x7F],
  [0x00, 0x00, 0x41, 0x7F, 0x41, 0x00],
  [0x00, 0x20, 0x40, 0x41, 0x3F, 0x01],
  [0x00, 0x7F, 0x08, 0x14, 0x22, 0x41],
  [0x00, 0x7F, 0x40, 0x40, 0x40, 0x40],
  [0x00, 0x7F, 0x02, 0x0C, 0x02, 0x7F],
  [0x00, 0x7F, 0x04, 0x08, 0x10, 0x7F],
  [0x00, 0x3E, 0x41, 0x41, 0x41, 0x3E],
  [0x00, 0x7F, 0x09, 0x09, 0x09, 0x06],
  [0x00, 0x3E, 0x41, 0x51, 0x21, 0x5E],
  [0x00, 0x7F, 0x09, 0x19, 0x29, 0x46],
  [0x00, 0x46, 0x49, 0x49, 0x49, 0x31],
  [0x00, 0x01, 0x01, 0x7F, 0x01, 0x01],
  [0x00, 0x3F, 0x40, 0x40, 0x40, 0x3F],
  [0x00, 0x1F, 0x20, 0x40, 0x20, 0x1F],
  [0x00, 0x3F, 0x40, 0x38, 0x40, 0x3F],
  [0x00, 0x63, 0x14, 0x08, 0x14, 0x63],
  [0x00, 0x07, 0x08, 0x70, 0x08, 0x07],
  [0x00, 0x61, 0x51, 0x49, 0x45, 0x43],
  [0x00, 0x00, 0x7F, 0x41, 0x41, 0x00],
  [0x00, 0x55, 0x2A, 0x55, 0x2A, 0x55],
  [0x00, 0x00, 0x41, 0x41, 0x7F, 0x00],
  [0x00, 0x04, 0x02, 0x01, 0x02, 0x04],
  [0x00, 0x40, 0x40, 0x40, 0x40, 0x40],
  [0x00, 0x00, 0x01, 0x02, 0x04, 0x00],
  [0x00, 0x20, 0x54, 0x54, 0x54, 0x78],
  [0x00, 0x7F, 0x48, 0x44, 0x44, 0x38],
  [0x00, 0x38, 0x44, 0x44, 0x44, 0x20],
  [0x00, 0x38, 0x44, 0x44, 0x48, 0x7F],
  [0x00, 0x38, 0x54, 0x54, 0x54, 0x18],
  [0x00, 0x08, 0x7E, 0x09, 0x01, 0x02],
  [0x00, 0x18, 0xA4, 0xA4, 0xA4, 0x7C],
  [0x00, 0x7F, 0x08, 0x04, 0x04, 0x78],
  [0x00, 0x00, 0x44, 0x7D, 0x40, 0x00],
  [0x00, 0x40, 0x80, 0x84, 0x7D, 0x00],
  [0x00, 0x7F, 0x10, 0x28, 0x44, 0x00],
  [0x00, 0x00, 0x41, 0x7F, 0x40, 0x00],
  [0x00, 0x7C, 0x04, 0x18, 0x04, 0x78],
  [0x00, 0x7C, 0x08, 0x04, 0x04, 0x78],
  [0x00, 0x38, 0x44, 0x44, 0x44, 0x38],
  [0x00, 0xFC, 0x24, 0x24, 0x24, 0x18],
  [0x00, 0x18, 0x24, 0x24, 0x18, 0xFC],
  [0x00, 0x7C, 0x08, 0x04, 0x04, 0x08],
  [0x00, 0x48, 0x54, 0x54, 0x54, 0x20],
  [0x00, 0x04, 0x3F, 0x44, 0x40, 0x20],
  [0x00, 0x3C, 0x40, 0x40, 0x20, 0x7C],
  [0x00, 0x1C, 0x20, 0x40, 0x20, 0x1C],
  [0x00, 0x3C, 0x40, 0x30, 0x40, 0x3C],
  [0x00, 0x44, 0x28, 0x10, 0x28, 0x44],
  [0x00, 0x1C, 0xA0, 0xA0, 0xA0, 0x7C],
  [0x00, 0x44, 0x64, 0x54, 0x4C, 0x44],
  [0x14, 0x14, 0x14, 0x14, 0x14, 0x14]]

def F6x8 : List (List UInt8) := columns6x8.map (List.map UInt8.ofNat)

def columns8x16 : List (List Nat) := [
  [0x00, 0x00, 0x00, 0x00, 0x00, 0x00, 0x00, 0x00, 0x00, 0x00, 0x00, 0x00, 0x00, 0x00, 0x00, 0x00],
  [0x00, 0x00, 0x00, 0xF8, 0x00, 0x00, 0x00, 0x00, 0x00, 0x00, 0x00, 0x33, 0x30, 0x00, 0x00, 0x00],
  [0x00, 0x10, 0x0C, 0x06, 0x10, 0x0C, 0x06, 0x00, 0x00, 0x00, 0x00, 0x00, 0x00, 0x00, 0x00, 0x00],
  [0x40, 0xC0, 0x78, 0x40, 0xC0, 0x78, 0x40, 0x00, 0x04, 0x3F, 0x04, 0x04, 0x3F, 0x04, 0x04, 0x00],
  [0x00, 0x70, 0x88, 0xFC, 0x08, 0x30, 0x00, 0x00, 0x00, 0x18, 0x20, 0xFF, 0x21, 0x1E, 0x00, 0x00],
  [0xF0, 0x08, 0xF0, 0x00, 0xE0, 0x18, 0x00, 0x00, 0x00, 0x21, 0x1C, 0x03, 0x1E, 0x21, 0x1E, 0x00],
  [0x00, 0xF0, 0x08, 0x88, 0x70, 0x00, 0x00, 0x00, 0x1E, 0x21, 0x23, 0x24, 0x19, 0x27, 0x21, 0x10],
  [0x10, 0x16, 0x0E, 0x00, 0x00, 0x00, 0x00, 0x00, 0x00, 0x00, 0x00, 0x00, 0x00, 0x00, 0x00, 0x00],
  [0x00, 0x00, 0x00, 0xE0, 0x18, 0x04, 0x02, 0x00, 0x00, 0x00, 0x00, 0x07, 0x18, 0x20, 0x40, 0x00],
  [0x00, 0x02, 0x04, 0x18, 0xE0, 0x00, 0x00, 0x00, 0x00, 0x40, 0x20, 0x18, 0x07, 0x00, 0x00, 0x00],
  [0x40, 0x40, 0x80, 0xF0, 0x80, 0x40, 0x40, 0x00, 0x02, 0x02, 0x01, 0x0F, 0x01, 0x02, 0x02, 0x00],
  [0x00, 0x00, 0x00, 0xF0, 0x00, 0x00, 0x00, 0x00, 0x01, 0x01, 0x01, 0x1F, 0x01, 0x01, 0x01, 0x00],
  [0x00, 0x00, 0x00, 0x00, 0x00, 0x00, 0x00, 0x00, 0x80, 0xB0, 0x70, 0x00, 0x00, 0x00, 0x00, 0x00],
  [0x00, 0x00, 0x00, 0x00, 0x00, 0x00, 0x00, 0x00, 0x00, 0x01, 0x01, 0x01, 0x01, 0x01, 0x01, 0x01],
  [0x00, 0x00, 0x00, 0x00, 0x00, 0x00, 0x00, 0x00, 0x00, 0x30, 0x30, 0x00, 0x00, 0x00, 0x00, 0x00],
  [0x00, 0x00, 0x00, 0x00, 0x80, 0x60, 0x18, 0x04, 0x00, 0x60, 0x18, 0x06, 0x01, 0x00, 0x00, 0x00],
  [0x00, 0xE0, 0x10, 0x08, 0x08, 0x10, 0xE0, 0x00, 0x00, 0x0F, 0x10, 0x20, 0x20, 0x10, 0x0F, 0x00],
  [0x00, 0x10, 0x10, 0xF8, 0x00, 0x00, 0x00, 0x00, 0x00, 0x20, 0x20, 0x3F, 0x20, 0x20, 0x00, 0x00],
  [0x00, 0x70, 0x08, 0x08, 0x08, 0x88, 0x70, 0x00, 0x00, 0x30, 0x28, 0x24, 0x22, 0x21, 0x30, 0x00],
  [0x00, 0x30, 0x08, 0x88, 0x88, 0x48, 0x30, 0x00, 0x00, 0x18, 0x20, 0x20, 0x20, 0x11, 0x0E, 0x00],
  [0x00, 0x00, 0xC0, 0x20, 0x10, 0xF8, 0x00, 0x00, 0x00, 0x07, 0x04, 0x24, 0x24, 0x3F, 0x24, 0x00],
  [0x00, 0xF8, 0x08, 0x88, 0x88, 0x08, 0x08, 0x00, 0x00, 0x19, 0x21, 0x20, 0x20, 0x11, 0x0E, 0x00],
  [0x00, 0xE0, 0x10, 0x88, 0x88, 0x18, 0x00, 0x00, 0x00, 0x0F, 0x11, 0x20, 0x20, 0x11, 0x0E, 0x00],
  [0x00, 0x38, 0x08, 0x08, 0xC8, 0x38, 0x08, 0x00, 0x00, 0x00, 0x00, 0x3F, 0x00, 0x00, 0x00, 0x00],
  [0x00, 0x70, 0x88, 0x08, 0x08, 0x88, 0x70, 0x00, 0x00, 0x1C, 0x22, 0x21, 0x21, 0x22, 0x1C, 0x00],
  [0x00, 0xE0, 0x10, 0x08, 0x08, 0x10, 0xE0, 0x00, 0x00, 0x00, 0x31, 0x22, 0x22, 0x11, 0x0F, 0x00],
  [0x00, 0x00, 0x00, 0xC0, 0xC0, 0x00, 0x00, 0x00, 0x00, 0x00, 0x00, 0x30, 0x30, 0x00, 0x00, 0x00],
  [0x00, 0x00, 0x00, 0x80, 0x00, 0x00, 0x00, 0x00, 0x00, 0x00, 0x80, 0x60, 0x00, 0x00, 0x00, 0x00],
  [0x00, 0x00, 0x80, 0x40, 0x20, 0x10, 0x08, 0x00, 0x00, 0x01, 0x02, 0x04, 0x08, 0x10, 0x20, 0x00],
  [0x40, 0x40, 0x40, 0x40, 0x40, 0x40, 0x40, 0x00, 0x04, 0x04, 0x04, 0x04, 0x04, 0x04, 0x04, 0x00],
  [0x00, 0x08, 0x10, 0x20, 0x40, 0x80, 0x00, 0x00, 0x00, 0x20, 0x10, 0x08, 0x04, 0x02, 0x01, 0x00],
  [0x00, 0x70, 0x48, 0x08, 0x08, 0x08, 0xF0, 0x00, 0x00, 0x00, 0x00, 0x30, 0x36, 0x01, 0x00, 0x00],
  [0xC0, 0x30, 0xC8, 0x28, 0xE8, 0x10, 0xE0, 0x00, 0x07, 0x18, 0x27, 0x24, 0x23, 0x14, 0x0B, 0x00],
  [0x00, 0x00, 0xC0, 0x38, 0xE0, 0x00, 0x00, 0x00, 0x20, 0x3C, 0x23, 0x02, 0x02, 0x27, 0x38, 0x20],
  [0x08, 0xF8, 0x88, 0x88, 0x88, 0x70, 0x00, 0x00, 0x20, 0x3F, 0x20, 0x20, 0x20, 0x11, 0x0E, 0x00],
  [0xC0, 0x30, 0x08, 0x08, 0x08, 0x08, 0x38, 0x00, 0x07, 0x18, 0x20, 0x20, 0x20, 0x10, 0x08, 0x00],
  [0x08, 0xF8, 0x08, 0x08, 0x08, 0x10, 0xE0, 0x00, 0x20, 0x3F, 0x20, 0x20, 0x20, 0x10, 0x0F, 0x00],
  [0x08, 0xF8, 0x88, 0x88, 0xE8, 0x08, 0x10, 0x00, 0x20, 0x3F, 0x20, 0x20, 0x23, 0x20, 0x18, 0x00],
  [0x08, 0xF8, 0x88, 0x88, 0xE8, 0x08, 0x10, 0x00, 0x20, 0x3F, 0x20, 0x00, 0x03, 0x00, 0x00, 0x00],
  [0xC0, 0x30, 0x08, 0x08, 0x08, 0x38, 0x00, 0x00, 0x07, 0x18, 0x20, 0x20, 0x22, 0x1E, 0x02, 0x00],
  [0x08, 0xF8, 0x08, 0x00, 0x00, 0x08, 0xF8, 0x08, 0x20, 0x3F, 0x21, 0x01, 0x01, 0x21, 0x3F, 0x20],
  [0x00, 0x08, 0x08, 0xF8, 0x08, 0x08, 0x00, 0x00, 0x00, 0x20, 0x20, 0x3F, 0x20, 0x20, 0x00, 0x00],
  [0x00, 0x00, 0x08, 0x08, 0xF8, 0x08, 0x08, 0x00, 0xC0, 0x80, 0x80, 0x80, 0x7F, 0x00, 0x00, 0x00],
  [0x08, 0xF8, 0x88, 0xC0, 0x28, 0x18, 0x08, 0x00, 0x20, 0x3F, 0x20, 0x01, 0x26, 0x38, 0x20, 0x00],
  [0x08, 0xF8, 0x08, 0x00, 0x00, 0x00, 0x00, 0x00, 0x20, 0x3F, 0x20, 0x20, 0x20, 0x20, 0x30, 0x00],
  [0x08, 0xF8, 0xF8, 0x00, 0xF8, 0xF8, 0x08, 0x00, 0x20, 0x3F, 0x00, 0x3F, 0x00, 0x3F, 0x20, 0x00],
  [0x08, 0xF8, 0x30, 0xC0, 0x00, 0x08, 0xF8, 0x08, 0x20, 0x3F, 0x20, 0x00, 0x07, 0x18, 0x3F, 0x00],
  [0xE0, 0x10, 0x08, 0x08, 0x08, 0x10, 0xE0, 0x00, 0x0F, 0x10, 0x20, 0x20, 0x20, 0x10, 0x0F, 0x00],
  [0x08, 0xF8, 0x08, 0x08, 0x08, 0x08, 0xF0, 0x00, 0x20, 0x3F, 0x21, 0x01, 0x01, 0x01, 0x00, 0x00],
  [0xE0, 0x10, 0x08, 0x08, 0x08, 0x10, 0xE0, 0x00, 0x0F, 0x18, 0x24, 0x24, 0x38, 0x50, 0x4F, 0x00],
  [0x08, 0xF8, 0x88, 0x88, 0x88, 0x88, 0x70, 0x00, 0x20, 0x3F, 0x20, 0x00, 0x03, 0x0C, 0x30, 0x20],
  [0x00, 0x70, 0x88, 0x08, 0x08, 0x08, 0x38, 0x00, 0x00, 0x38, 0x20, 0x21, 0x21, 0x22, 0x1C, 0x00],
  [0x18, 0x08, 0x08, 0xF8, 0x08, 0x08, 0x18, 0x00, 0x00, 0x00, 0x20, 0x3F, 0x20, 0x00, 0x00, 0x00],
  [0x08, 0xF8, 0x08, 0x00, 0x00, 0x08, 0xF8, 0x08, 0x00, 0x1F, 0x20, 0x20, 0x20, 0x20, 0x1F, 0x00],
  [0x08, 0x78, 0x88, 0x00, 0x00, 0xC8, 0x38, 0x08, 0x00, 0x00, 0x07, 0x38, 0x0E, 0x01, 0x00, 0x00],
  [0xF8, 0x08, 0x00, 0xF8, 0x00, 0x08, 0xF8, 0x00, 0x03, 0x3C, 0x07, 0x00, 0x07, 0x3C, 0x03, 0x00],
  [0x08, 0x18, 0x68, 0x80, 0x80, 0x68, 0x18, 0x08, 0x20, 0x30, 0x2C, 0x03, 0x03, 0x2C, 0x30, 0x20],
  [0x08, 0x38, 0xC8, 0x00, 0xC8, 0x38, 0x08, 0x00, 0x00, 0x00, 0x20, 0x3F, 0x20, 0x00, 0x00, 0x00],
  [0x10, 0x08, 0x08, 0x08, 0xC8, 0x38, 0x08, 0x00, 0x20, 0x38, 0x26, 0x21, 0x20, 0x20, 0x18, 0x00],
  [0x00, 0x00, 0x00, 0xFE, 0x02, 0x02, 0x02, 0x00, 0x00, 0x00, 0x00, 0x7F, 0x40, 0x40, 0x40, 0x00],
  [0x00, 0x0C, 0x30, 0xC0, 0x00, 0x00, 0x00, 0x00, 0x00, 0x00, 0x00, 0x01, 0x06, 0x38, 0xC0, 0x00],
  [0x00, 0x02, 0x02, 0x02, 0xFE, 0x00, 0x00, 0x00, 0x00, 0x40, 0x40, 0x40, 0x7F, 0x00, 0x00, 0x00],
  [0x00, 0x00, 0x04, 0x02, 0x02, 0x02, 0x04, 0x00, 0x00, 0x00, 0x00, 0x00, 0x00, 0x00, 0x00, 0x00],
  [0x00, 0x00, 0x00, 0x00, 0x00, 0x00, 0x00, 0x00, 0x80, 0x80, 0x80, 0x80, 0x80, 0x80, 0x80, 0x80],
  [0x00, 0x02, 0x02, 0x04, 0x00, 0x00, 0x00, 0x00, 0x00, 0x00, 0x00, 0x00, 0x00, 0x00, 0x00, 0x00],
  [0x00, 0x00, 0x80, 0x80, 0x80, 0x80, 0x00, 0x00, 0x00, 0x19, 0x24, 0x22, 0x22, 0x22, 0x3F, 0x20],
  [0x08, 0xF8, 0x00, 0x80, 0x80, 0x00, 0x00, 0x00, 0x00, 0x3F, 0x11, 0x20, 0x20, 0x11, 0x0E, 0x00],
  [0x00, 0x00, 0x00, 0x80, 0x80, 0x80, 0x00, 0x00, 0x00, 0x0E, 0x11, 0x20, 0x20, 0x20, 0x11, 0x00],
  [0x00, 0x00, 0x00, 0x80, 0x80, 0x88, 0xF8, 0x00, 0x00, 0x0E, 0x11, 0x20, 0x20, 0x10, 0x3F, 0x20],
  [0x00, 0x00, 0x80, 0x80, 0x80, 0x80, 0x00, 0x00, 0x00, 0x1F, 0x22, 0x22, 0x22, 0x22, 0x13, 0x00],
  [0x00, 0x80, 0x80, 0xF0, 0x88, 0x88, 0x88, 0x18, 0x00, 0x20, 0x20, 0x3F, 0x20, 0x20, 0x00, 0x00],
  [0x00, 0x00, 0x80, 0x80, 0x80, 0x80, 0x80, 0x00, 0x00, 0x6B, 0x94, 0x94, 0x94, 0x93, 0x60, 0x00],
  [0x08, 0xF8, 0x00, 0x80, 0x80, 0x80, 0x00, 0x00, 0x20, 0x3F, 0x21, 0x00, 0x00, 0x20, 0x3F, 0x20],
  [0x00, 0x80, 0x98, 0x98, 0x00, 0x00, 0x00, 0x00, 0x00, 0x20, 0x20, 0x3F, 0x20, 0x20, 0x00, 0x00],
  [0x00, 0x00, 0x00, 0x80, 0x98, 0x98, 0x00, 0x00, 0x00, 0xC0, 0x80, 0x80, 0x80, 0x7F, 0x00, 0x00],
  [0x08, 0xF8, 0x00, 0x00, 0x80, 0x80, 0x80, 0x00, 0x20, 0x3F, 0x24, 0x02, 0x2D, 0x30, 0x20, 0x00],
  [0x00, 0x08, 0x08, 0xF8, 0x00, 0x00, 0x00, 0x00, 0x00, 0x20, 0x20, 0x3F, 0x20, 0x20, 0x00, 0x00],
  [0x80, 0x80, 0x80, 0x80, 0x80, 0x80, 0x80, 0x00, 0x20, 0x3F, 0x20, 0x00, 0x3F, 0x20, 0x00, 0x3F],
  [0x80, 0x80, 0x00, 0x80, 0x80, 0x80, 0x00, 0x00, 0x20, 0x3F, 0x21, 0x00, 0x00, 0x20, 0x3F, 0x20],
  [0x00, 0x00, 0x80, 0x80, 0x80, 0x80, 0x00, 0x00, 0x00, 0x1F, 0x20, 0x20, 0x20, 0x20, 0x1F, 0x00],
  [0x80, 0x80, 0x00, 0x80, 0x80, 0x00, 0x00, 0x00, 0x80, 0xFF, 0xA1, 0x20, 0x20, 0x11, 0x0E, 0x00],
  [0x00, 0x00, 0x00, 0x80, 0x80, 0x80, 0x80, 0x00, 0x00, 0x0E, 0x11, 0x20, 0x20, 0xA0, 0xFF, 0x80],
  [0x80, 0x80, 0x80, 0x00, 0x80, 0x80, 0x80, 0x00, 0x20, 0x20, 0x3F, 0x21, 0x20, 0x00, 0x01, 0x00],
  [0x00, 0x00, 0x80, 0x80, 0x80, 0x80, 0x80, 0x00, 0x00, 0x33, 0x24, 0x24, 0x24, 0x24, 0x19, 0x00],
  [0x00, 0x80, 0x80, 0xE0, 0x80, 0x80, 0x00, 0x00, 0x00, 0x00, 0x00, 0x1F, 0x20, 0x20, 0x00, 0x00],
  [0x80, 0x80, 0x00, 0x00, 0x00, 0x80, 0x80, 0x00, 0x00, 0x1F, 0x20, 0x20, 0x20, 0x10, 0x3F, 0x20],
  [0x80, 0x80, 0x80, 0x00, 0x00, 0x80, 0x80, 0x80, 0x00, 0x01, 0x0E, 0x30, 0x08, 0x06, 0x01, 0x00],
  [0x80, 0x80, 0x00, 0x80, 0x00, 0x80, 0x80, 0x80, 0x0F, 0x30, 0x0C, 0x03, 0x0C, 0x30, 0x0F, 0x00],
  [0x00, 0x80, 0x80, 0x00, 0x80, 0x80, 0x80, 0x00, 0x00, 0x20, 0x31, 0x2E, 0x0E, 0x31, 0x20, 0x00],
  [0x80, 0x80, 0x80, 0x00, 0x00, 0x80, 0x80, 0x80, 0x80, 0x81, 0x8E, 0x70, 0x18, 0x06, 0x01, 0x00],
  [0x00, 0x80, 0x80, 0x80, 0x80, 0x80, 0x80, 0x00, 0x00, 0x21, 0x30, 0x2C, 0x22, 0x21, 0x30, 0x00],
  [0x00, 0x00, 0x00, 0x00, 0x80, 0x7C, 0x02, 0x02, 0x00, 0x00, 0x00, 0x00, 0x00, 0x3F, 0x40, 0x40],
  [0x00, 0x00, 0x00, 0x00, 0xFF, 0x00, 0x00, 0x00, 0x00, 0x00, 0x00, 0x00, 0xFF, 0x00, 0x00, 0x00],
  [0x00, 0x02, 0x02, 0x7C, 0x80, 0x00, 0x00, 0x00, 0x00, 0x40, 0x40, 0x3F, 0x00, 0x00, 0x00, 0x00],
  [0x00, 0x06, 0x01, 0x01, 0x02, 0x02, 0x04, 0x04, 0x00, 0x00, 0x00, 0x00, 0x00, 0x00, 0x00, 0x00]]

def F8X16 : List UInt8 := columns8x16.flatten.map UInt8.ofNat

theorem length_F6x8 : F6x8.length = 92 := by
  rw [F6x8, List.length_map]
  decide

theorem length_of_mem_F6x8 {row : List UInt8} (listed : row ∈ F6x8) : row.length = 6 := by
  have complete : ∀ columns ∈ columns6x8, columns.length = 6 := by decide +kernel
  obtain ⟨columns, present, rfl⟩ := List.mem_map.mp listed
  rw [List.length_map, complete columns present]

theorem length_F8X16 : F8X16.length = 1520 := by
  rw [F8X16, List.length_map]
  decide +kernel

end WifiIot.Oled
