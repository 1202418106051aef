import PromptPack.Tokens.Entries
/-!
# Fragments of words

The parts that words without an entry of their own are merged to.
-/

namespace PromptPack.Tokens

/-- Fragments of words, the most frequent first. -/
def fragments : List (List UInt8) := entries [
  "·t ·a he in re on ·the er ·s at ·w ·o en ·c it is an or es ·b ed ·f ing ·p ou ·an al ar ·to ·m ·of",
  "·in ·d ·h ·and ic as le ·th ion om ll ent ·n ·l st ·re ve ·e ro ly ·be ·g ·T ct ·S id ot ·I ut et",
  "·A ·is ·on im am ow ay ad se ·that ·C ig ·for ac ·y ver ur ·u ld ·st ·M 's ·he ·it ation ith ir ce",
  "·you il ·B ·wh ol ·P ·with ·1 ter ch ·as ·we ·( nd ill ·D if ·2 ag ers ke ·\" ·H em ·con ·W ·R her",
  "·was ·r od ·F ul ate ·at ri pp ore ·The ·se us ·pro ·ha um ·are ·de ain and ·or igh est ist ab rom",
  "·N th ·com ·G un op 00 ·L ·not ess ·ex ·v res ·E ew ity ant ·by el os ort oc qu ·from ·have ·su ive",
  "ould ·sh ·this nt ra pe ight art ment ·al ust end -- all ·O ack ·ch ·le ies red ard out ·J ·ab ear",
  "iv ally our ost gh pt ·pl ast ·can ak ome ud The ·his ·do ·go ·has ge 't ·U rou ·sa ·j ·but ·wor",
  "·all ect ·k ame ·will ok ·whe ·they ide 01 ff ich pl ther ·tr .. ·int ie ure age ·ne ial ap ine ice",
  "·me ·out ans one ong ions ·who ·K ·up ·their ·ad ·3 ·us ated ous ·more ue og ·st ind ike ·so ime per",
  ".\" ber iz act ·one ·said ·- are ·your cc ·th ·cl ep ake able ip ·cont ·which ia ·im ·about ·were",
  "very ub ·had ·en ·comp ,\" ·In ·un ·ag ire ace au ary ·would ass ry ·$ cl ook ere so ·V ign ib ·off",
  "·te ven ·Y ile ose ite orm ·201 ·res ·man ·per ·other ord ult ·been ·like ase ance ks ays own ence",
  "·dis ction ·any ·app ·sp int ress ations ail ·4 ical ·them ·her ount ·Ch ·ar ·if ·there ·pe ·year av",
  "·my ·some ·when ough ach ·than ru ond ick ·over vel ·qu ⏎⏎ ·sc reat ree ·It ound port ·also ·part",
  "fter ·kn ·bec ·time ens ·5 ople ·what ·no du mer ang ·new ---- ·get ory ition ings ·just ·into ·0",
  "ents ove te ·people ·pre ·its ·rec ·tw ian irst ark ors ·work ade ob ·she ·our wn ink lic ·19 ·He",
  "ish nder ause ·him ons ·[ ·ro form ild ates vers ·only oll ·spe ck ell amp ·acc ·bl ious urn ft ood",
  "·how hed ·' ·after aw ·att ov ne ·play erv ict ·could itt ·am ·first ·6 ·act ·$ ec hing ual ull ·comm",
  "oy old ces ater ·fe ·bet we iff ·two ock ·back ). ident ·under rough sel xt ·may round ·po ph iss ·des",
  "·most ·did ·add ject ·inc fore ·pol ont ·again clud tern ·know ·need ·cons ·co ·. ·want ·see ·7 ning",
  "iew ·This ced ·even ·ind ty ·We ath ·these ·pr ·use ·because ·fl ng ·now ·com ·make ·then ·every self",
  "ext me no ex de us la ma na ti ta to lo li el em ep mp be co ca ha ho di do pa po pr pu ln rs tr aa ii",
  "ase ines lines ew new ics ics Id Ident ier ifier am Cam Case print println ind ode code ame name otes",
  "LL 're 've 'm 'll 'd ré mig ·na ïve aaaa abs ob ject"]

end PromptPack.Tokens
