/-
Second names of characters: the abbreviations and names of control characters, and corrected
spellings, in the form that `Text.CharName` reads.
-/
import Docsmith.Text.Packed

namespace Docsmith.Text

def aliasNames : Packed := ⟨3281, "
 U@z[]~PO&zZfTJM)k;VX2r0%*6Fa|!EY,*3y7IPkYSpBA9o.xBh%n@L3H9,a*+&Pn4y~!MbU(X_+p7Nj6HA&lC!_]+NY!4TD4M]
 HtB.|$_:.&!DFF]=N|Yop]&GiNjkm|0aqMy^N83=5(kh~RO0oudzU~l7NtCrXMLa3[CUZ?7fX#aU*zN6(%A.s5>Jv9e3J;qBkgP
 p|pR.JnK|=tBsN2_3[^k,Ue85kPL%t::ssUb<ibKXq$o]fe9a^$<DG%3%xIG;JPzt7RSZV8xw$K;zy|^6[nN@63hHgC9?ZkvAsS
 i:RknZ5$h3ly(#Z2y3Tu32O^1%ql@SvRdJSlB|%+C*tiucx.$OMwS*ee5&uyYJNx#.pCq#!tZWA9ypJB5(h81.BWi8nOjR;(z&0
 !(c,AORT&G+z)bD_<N+yo2diOaIA40>GZcOKBeQCqTb6ltpGr=KGz<Xp0NOcinj%h(:[qFR8k8E]9):itR!$Ub@7<)aRzKHktq7
 &pIceEM4nI09U;_ypIe#;ENfs$6ZUaXHd.J8;XjY%8D|Q!Y.eGtj)%Prfe$=]uB123z7AdQ:vs4Kt5oy%RB3:b[OCQ&Kz&KCZ8n
 i0Oc,ig]UME[aKoy_;_c<hN%oyBqo?hzN|0O,I6X455y!b(5L<1%a7X=TS)!4E^w|y]@_GiwdKiS#O~E0#gI~Zl;[8VEkyD[v+V
 ~SVQNok|KVFZ!4W|SreCIOE[6c|v%U)ul##%uA+]iu+x~qipnBsIkx^Ef*a$+(E?jg[,;K.V&YVNL)+HIRmWGS^$GSeMuar1.9~
 Q]uDoTD;+^6h#vyv&Id(Mut3M!xZw$0F(bWks~Z@~A=~b1_UFIq*mzWb&h#U1wLlpH=pc!=kqRdV4PM.zc;:[omOwP4u4~J:5]x
 A<l!fNGqlY0Sbb:0x]&f7w1Z@|A>fN<PK^r#O7Saj,jEP2v<A:4(%5&aoJG7qsk#,3o@AM8(nVzWEzXEG(kndDwU+Im51GWtq~:
 !3P*w.%y@OJY$4MGc]k+zzG[Cvjw?osK3kP@0C<VXNOLc^OOmG~hX,1LFY8|zq_j>jc0du:^pX^wWnx@x%&xHmr|36X]I,+lKVZ
 r3@ESSo,$Sw3%,+cNI0G7N(2i8h7rERr<,VuewCG~ZjhXB)*eI2L:3My&n^)[IH?SmI]LiQm#C9i;7OT&01l#z=FWT.kBy,Y84Z
 8,DP9f!&D(;ve9_TLR56q]ut>GtEQ?YvBfZ8*@fa[$Jlba<?#4_1O+bAh27#*.tU[JXLC~8VVVfCF)vKrF1krW7vN~KbGJL>kK^
 hiIHMkReYQ[eE(,MwL#KY<A?Fj)M^>B$rN)+:1sB(cZ67h:4prH4!VkZ?P(a2!nagQkt^J$rdxHU^8Hr1^L_blgRK?TBtka<1fo
 Yp~rcNm]7.3fA,N1M>U6:_!HGxLYUowO>~Ki:4WH#5(|aA=mSP[G8LXj.=|@ByM!sKc4$+iip#X3F_(F)"⟩

end Docsmith.Text
